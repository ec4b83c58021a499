import StonePlus.Lib.WhileLoop
import StonePlus.Scheduler.StickyIndexes

/-!
# StonePlus.Scheduler.StickyUpdates

Eviction, expiry and the updates of the sticky cache keep its representation invariant.

The three loops are runs of `Lib.WhileLoop`: eviction is measured by the length of the list it
shortens, expiry by the length of the heap it pops.
-/

namespace StonePlus.Scheduler.StickyCache

open Lib

variable {c c' : StickyCache}

/-! ## Eviction -/

theorem Consistent.evict (h : c.Consistent) (k : JsString) (kind : StickyKind) :
    (c.evictStickyEntry k kind).Consistent ∧ Within (c.evictStickyEntry k kind) c := by
  cases kind with
  | assignment => exact ⟨h.deleteSticky k, h.deleteSticky_within k⟩
  | avoidance => exact ⟨h.deleteAvoidance k, h.deleteAvoidance_within k⟩

/-- Evicting a key under the kind it is listed with removes its record. -/
theorem Indexed.recordEntry_evict (h : c.Indexed) (he : c.recordEntry k = some e) :
    (c.evictStickyEntry k e.kind).recordEntry k = none := by
  rcases hs : c.sticky.get? k with _ | r
  · rcases hr : c.stickyFailureAvoidance.get? k with _ | r
    · rw [recordEntry_of_none hs hr] at he
      cases he
    · rw [recordEntry_of_avoidance hs hr] at he
      cases he
      exact recordEntry_of_none ((h.deleteAvoidance_within k).sticky_none hs)
        (h.get?_deleteAvoidance k)
  · rw [recordEntry_of_sticky hs] at he
    cases he
    exact recordEntry_of_none (h.get?_deleteSticky k)
      ((h.deleteSticky_within k).avoidance_none (h.disjoint k r hs))

/-- One turn of the loop over a pool's entries. -/
def evictFromPool (poolId : JsString) (c : StickyCache) : Option StickyCache :=
  if c.maxStickyEntriesPerPool ≤ (c.stickyLruByPool.getD poolId ∅).size then
    (c.stickyLruByPool.getD poolId ∅).entries.head?.map fun oldest =>
      c.evictStickyEntry oldest.1 oldest.2
  else none

/-- One turn of the loop over all entries. -/
def evictOldest (c : StickyCache) : Option StickyCache :=
  if c.maxStickyEntries ≤ c.stickyLru.size then
    c.stickyLru.entries.head?.map fun oldest => c.evictStickyEntry oldest.1 oldest.2.kind
  else none

theorem enforcePoolCapacity_eq (poolId : JsString) (fuel : Nat) (c : StickyCache) :
    enforcePoolCapacity poolId fuel c = WhileLoop.run (evictFromPool poolId) fuel c := by
  induction fuel generalizing c with
  | zero => rfl
  | succ fuel ih =>
      rw [enforcePoolCapacity, WhileLoop.run]
      by_cases hfull : c.maxStickyEntriesPerPool ≤ (c.stickyLruByPool.getD poolId ∅).size
      · rcases hentries : (c.stickyLruByPool.getD poolId ∅).entries with _ | ⟨oldest, _⟩ <;>
          simp [evictFromPool, hfull, hentries, ih]
      · simp [evictFromPool, hfull]

theorem enforceGlobalCapacity_eq (fuel : Nat) (c : StickyCache) :
    enforceGlobalCapacity fuel c = WhileLoop.run evictOldest fuel c := by
  induction fuel generalizing c with
  | zero => rfl
  | succ fuel ih =>
      rw [enforceGlobalCapacity, WhileLoop.run]
      by_cases hfull : c.maxStickyEntries ≤ c.stickyLru.size
      · rcases hentries : c.stickyLru.entries with _ | ⟨oldest, _⟩ <;>
          simp [evictOldest, hfull, hentries, ih]
      · simp [evictOldest, hfull]

/-- The invariant of the eviction loops started at `c`. -/
def Evicting (c c' : StickyCache) : Prop := c'.Consistent ∧ Within c' c

theorem Consistent.evicting (h : c.Consistent) : Evicting c c := ⟨h, .refl c⟩

theorem Evicting.evict (h : Evicting c c') (k : JsString) (kind : StickyKind) :
    Evicting c (c'.evictStickyEntry k kind) :=
  ⟨(h.1.evict k kind).1, h.2.trans (h.1.evict k kind).2⟩

/-- A turn over a pool evicts one of its entries. -/
theorem evictFromPool_step (poolId : JsString) (h : Evicting c s)
    (hs : evictFromPool poolId s = some s') :
    Evicting c s' ∧ (s'.stickyLruByPool.group poolId).size < (s.stickyLruByPool.group poolId).size := by
  unfold evictFromPool at hs
  split at hs
  · obtain ⟨⟨k, kind⟩, hhead, rfl⟩ := Option.map_eq_some_iff.mp hs
    have hget : (s.stickyLruByPool.group poolId).get? k = some kind :=
      JsMap.get?_eq_some_iff.mpr (List.mem_of_mem_head? hhead)
    have hmem := JsMap.mem_keys_iff.mpr ⟨kind, hget⟩
    obtain ⟨kind', he⟩ := h.1.mem_pool.mp hmem
    have hkind : kind' = kind := by
      have := h.1.pools.get?_group poolId k
      rw [hget, he] at this
      simpa [Option.filter_some] using this.symm
    subst hkind
    have hevicted := h.evict k kind'
    refine ⟨hevicted, JsMap.size_lt_of_subset (fun k' hk' => ?_) hmem fun hk' => ?_⟩
    · obtain ⟨kind, he⟩ := hevicted.1.mem_pool.mp hk'
      exact h.1.mem_pool.mpr ⟨kind, (h.1.evict k kind').2.recordEntry h.1.toIndexed he⟩
    · obtain ⟨kind, hentry⟩ := hevicted.1.mem_pool.mp hk'
      rw [h.1.recordEntry_evict he] at hentry
      cases hentry
  · cases hs

/-- A turn over all entries evicts one of them. -/
theorem evictOldest_step (h : Evicting c s) (hs : evictOldest s = some s') :
    Evicting c s' ∧ s'.stickyLru.size < s.stickyLru.size := by
  unfold evictOldest at hs
  split at hs
  · obtain ⟨⟨k, e⟩, hhead, rfl⟩ := Option.map_eq_some_iff.mp hs
    have hget : s.stickyLru.get? k = some e :=
      JsMap.get?_eq_some_iff.mpr (List.mem_of_mem_head? hhead)
    have he := (h.1.lru k).symm.trans hget
    have hevicted := h.evict k e.kind
    refine ⟨hevicted, JsMap.size_lt_of_subset (fun k' hk' => ?_)
      (JsMap.mem_keys_iff.mpr ⟨e, hget⟩) (JsMap.get?_eq_none_iff.mp ?_)⟩
    · obtain ⟨e', he'⟩ := JsMap.mem_keys_iff.mp hk'
      exact JsMap.mem_keys_iff.mpr ⟨e', (h.1.lru k').trans
        ((h.1.evict k e.kind).2.recordEntry h.1.toIndexed ((hevicted.1.lru k').symm.trans he'))⟩
    · exact (hevicted.1.lru k).trans (h.1.recordEntry_evict he)
  · cases hs

theorem pool_size_lt (hpos : 0 < c.maxStickyEntriesPerPool) (h : evictFromPool poolId c = none) :
    (c.stickyLruByPool.group poolId).size < c.maxStickyEntriesPerPool := by
  unfold evictFromPool at h
  split at h
  · have hnil : (c.stickyLruByPool.group poolId).entries = [] := by
      simpa [JsMap.group] using h
    rw [JsMap.size, hnil]
    exact hpos
  · next hsize => exact Nat.lt_of_not_le hsize

theorem size_lt (hpos : 0 < c.maxStickyEntries) (h : evictOldest c = none) :
    c.stickyLru.size < c.maxStickyEntries := by
  unfold evictOldest at h
  split at h
  · have hnil : c.stickyLru.entries = [] := by simpa using h
    rw [JsMap.size, hnil]
    exact hpos
  · next hsize => exact Nat.lt_of_not_le hsize

/-- The loop over a pool has ended after as many turns as the pool has entries. -/
theorem Consistent.enforcePoolCapacity_add (h : c.Consistent) (poolId : JsString) (more : Nat) :
    enforcePoolCapacity poolId ((c.stickyLruByPool.getD poolId ∅).size + more) c =
      enforcePoolCapacity poolId (c.stickyLruByPool.getD poolId ∅).size c := by
  rw [enforcePoolCapacity_eq, enforcePoolCapacity_eq]
  exact WhileLoop.run_add (WhileLoop.run_spec (fun _ _ => evictFromPool_step poolId) h.evicting
    (Nat.le_refl (c.stickyLruByPool.group poolId).size)).2 more

/-- The loop over all entries has ended after as many turns as there are entries. -/
theorem Consistent.enforceGlobalCapacity_add (h : c.Consistent) (more : Nat) :
    enforceGlobalCapacity (c.stickyLru.size + more) c =
      enforceGlobalCapacity c.stickyLru.size c := by
  rw [enforceGlobalCapacity_eq, enforceGlobalCapacity_eq]
  exact WhileLoop.run_add (WhileLoop.run_spec (fun _ _ => evictOldest_step) h.evicting
    (Nat.le_refl c.stickyLru.size)).2 more

/-- After eviction there is room for one more entry, in the pool and overall. -/
theorem Valid.enforceStickyCapacity (h : c.Valid) (poolId : JsString) :
    (c.enforceStickyCapacity poolId).Consistent ∧ Within (c.enforceStickyCapacity poolId) c ∧
      ((c.enforceStickyCapacity poolId).stickyLruByPool.group poolId).size <
        c.maxStickyEntriesPerPool ∧
      (c.enforceStickyCapacity poolId).stickyLru.size < c.maxStickyEntries := by
  unfold StickyCache.enforceStickyCapacity
  dsimp only
  rw [enforcePoolCapacity_eq, enforceGlobalCapacity_eq]
  obtain ⟨hpool, hend⟩ := WhileLoop.run_spec (fun _ _ => evictFromPool_step poolId)
    h.toConsistent.evicting (Nat.le_refl (c.stickyLruByPool.group poolId).size)
  change Evicting c (WhileLoop.run (evictFromPool poolId)
    (c.stickyLruByPool.getD poolId ∅).size c) at hpool
  change evictFromPool poolId (WhileLoop.run (evictFromPool poolId)
    (c.stickyLruByPool.getD poolId ∅).size c) = none at hend
  generalize WhileLoop.run (evictFromPool poolId) (c.stickyLruByPool.getD poolId ∅).size c = c₁ at *
  obtain ⟨hglobal, hend'⟩ := WhileLoop.run_spec (fun _ _ => evictOldest_step)
    hpool.1.evicting (Nat.le_refl c₁.stickyLru.size)
  generalize WhileLoop.run evictOldest c₁.stickyLru.size c₁ = c₂ at *
  have hwithin := hpool.2.trans hglobal.2
  refine ⟨hglobal.1, hwithin, ?_, ?_⟩
  · have hlt := pool_size_lt (hpool.2.maxStickyEntriesPerPool ▸ h.pool_pos) hend
    rw [hpool.2.maxStickyEntriesPerPool] at hlt
    exact (hglobal.2.pool_size_le hpool.1.toIndexed hglobal.1.toIndexed poolId).trans_lt hlt
  · have hlt := size_lt (hwithin.maxStickyEntries ▸ h.pool_pos.trans_le h.pool_le) hend'
    rwa [hwithin.maxStickyEntries] at hlt

/-! ## Expiry -/

/-- One turn of an expiry loop. -/
def popStep (now : Millis) (heapOf : StickyCache → List StickyExpiryEntry)
    (withHeap : StickyCache → List StickyExpiryEntry → StickyCache)
    (drop : StickyCache → StickyExpiryEntry → StickyCache) (c : StickyCache) : Option StickyCache :=
  match heapOf c with
  | [] => none
  | first :: _ =>
      if first.expiresAt ≤ now then
        match popExpiry (heapOf c) with
        | (none, _) => none
        | (some expired, heap) => some (drop (withHeap c heap) expired)
      else none

section Pop

variable {now : Millis} {heapOf : StickyCache → List StickyExpiryEntry}
variable {withHeap : StickyCache → List StickyExpiryEntry → StickyCache}
variable {drop : StickyCache → StickyExpiryEntry → StickyCache}

theorem popExpired_eq (fuel : Nat) (c : StickyCache) :
    popExpired now heapOf withHeap drop fuel c =
      WhileLoop.run (popStep now heapOf withHeap drop) fuel c := by
  induction fuel generalizing c with
  | zero => rfl
  | succ fuel ih =>
      rw [popExpired, WhileLoop.run]
      rcases hheap : heapOf c with _ | ⟨first, rest⟩
      · simp [popStep, hheap]
      · by_cases hnow : first.expiresAt ≤ now
        · rcases hpop : popExpiry (first :: rest) with ⟨_ | expired, heap⟩ <;>
            simp [popStep, hheap, hnow, hpop, ih]
        · simp [popStep, hheap, hnow]

/-- An expiry loop keeps what each pop keeps, and leaves no expired entry in the heap. -/
theorem popExpired_spec {Inv : StickyCache → Prop} (hordered : ∀ s, Inv s → ExpiryHeap (heapOf s))
    (hstep : ∀ s first heap, Inv s → ExpiryHeap heap →
      (∀ e ∈ heapOf s, e = first ∨ e ∈ heap) → Inv (drop (withHeap s heap) first) ∧
        heapOf (drop (withHeap s heap) first) = heap)
    (h : Inv c) :
    Inv (popExpired now heapOf withHeap drop (heapOf c).length c) ∧
      ∀ e ∈ heapOf (popExpired now heapOf withHeap drop (heapOf c).length c), now < e.expiresAt := by
  rw [popExpired_eq]
  have hturn : ∀ s s', Inv s → popStep now heapOf withHeap drop s = some s' →
      Inv s' ∧ (heapOf s').length < (heapOf s).length := by
    intro s s' hs hpop
    unfold popStep at hpop
    rcases hheap : heapOf s with _ | ⟨first, rest⟩
    · simp [hheap] at hpop
    · obtain ⟨heap, heq, hheap', hlength, hmem⟩ := popExpiry_spec (hheap ▸ hordered s hs)
      have hsome : drop (withHeap s heap) first = s' := by
        by_cases hnow : first.expiresAt ≤ now
        · simpa [hheap, heq, hnow] using hpop
        · simp [hheap, hnow] at hpop
      obtain ⟨hinv, hafter⟩ := hstep s first heap hs hheap' (hheap ▸ hmem)
      subst hsome
      refine ⟨hinv, ?_⟩
      rw [hafter, List.length_cons]
      omega
  obtain ⟨hinv, hend⟩ := WhileLoop.run_spec hturn h (Nat.le_refl (heapOf c).length)
  refine ⟨hinv, fun e he => ?_⟩
  generalize WhileLoop.run (popStep now heapOf withHeap drop) (heapOf c).length c = s at *
  have hheap := hordered s hinv
  unfold popStep at hend
  rcases hs : heapOf s with _ | ⟨first, rest⟩
  · rw [hs] at he
    cases he
  · rw [hs] at hend he hheap
    obtain ⟨heap, heq, -⟩ := popExpiry_spec hheap
    have hfirst : now < first.expiresAt := by
      by_contra hnow
      simp [heq, Nat.le_of_not_lt hnow] at hend
    exact hfirst.trans_le (hheap.root_le rfl he)

end Pop

/-- A popped assignment entry: the assignment it still describes goes with it. -/
theorem Evicting.popSticky (h : Evicting c s) (hheap : ExpiryHeap heap)
    (hmem : ∀ e ∈ s.stickyExpiry, e = first ∨ e ∈ heap)
    (hs' : s' = { s with stickyExpiry := heap }) :
    Evicting c (if (s'.sticky.get? first.key).any fun r => decide (r.expiresAt = first.expiresAt)
      then s'.deleteSticky first.key else s') := by
  have hindexed : s'.Indexed := hs' ▸ ⟨h.1.disjoint, h.1.lru, h.1.pools, h.1.accounts⟩
  have hwithin : Within s' c := hs' ▸ ⟨h.2.sticky, h.2.avoidance, h.2.3, h.2.4⟩
  have havoidance : Tracks s'.stickyFailureExpiry s'.stickyFailureAvoidance :=
    hs' ▸ h.1.avoidanceHeap
  have hlive : ∀ k r, s'.sticky.get? k = some r → ⟨k, r.expiresAt⟩ = first ∨
      ⟨k, r.expiresAt⟩ ∈ s'.stickyExpiry := fun k r hr => by
    subst hs'
    exact hmem _ (h.1.stickyHeap.live k r hr)
  have hordered : ExpiryHeap s'.stickyExpiry := hs' ▸ hheap
  split
  · refine ⟨⟨hindexed.deleteSticky _, hindexed.tracks_deleteSticky hordered fun k r hk hr => ?_,
      hindexed.tracks_avoidance _ havoidance⟩, hwithin.trans (hindexed.deleteSticky_within _)⟩
    exact (hlive k r hr).resolve_left fun heq => hk (heq ▸ rfl)
  · next hstale =>
    refine ⟨⟨hindexed, ⟨hordered, fun k r hr => (hlive k r hr).resolve_left fun heq => hstale ?_⟩,
      havoidance⟩, hwithin⟩
    subst heq
    simp [hr]

/-- A popped avoidance entry: the avoidance it still describes goes with it. -/
theorem Evicting.popAvoidance (h : Evicting c s) (hheap : ExpiryHeap heap)
    (hmem : ∀ e ∈ s.stickyFailureExpiry, e = first ∨ e ∈ heap)
    (hs' : s' = { s with stickyFailureExpiry := heap }) :
    Evicting c (if (s'.stickyFailureAvoidance.get? first.key).any fun r =>
        decide (r.expiresAt = first.expiresAt)
      then s'.deleteStickyFailureAvoidance first.key else s') := by
  have hindexed : s'.Indexed := hs' ▸ ⟨h.1.disjoint, h.1.lru, h.1.pools, h.1.accounts⟩
  have hwithin : Within s' c := hs' ▸ ⟨h.2.sticky, h.2.avoidance, h.2.3, h.2.4⟩
  have hsticky : Tracks s'.stickyExpiry s'.sticky := hs' ▸ h.1.stickyHeap
  have hlive : ∀ k r, s'.stickyFailureAvoidance.get? k = some r → ⟨k, r.expiresAt⟩ = first ∨
      ⟨k, r.expiresAt⟩ ∈ s'.stickyFailureExpiry := fun k r hr => by
    subst hs'
    exact hmem _ (h.1.avoidanceHeap.live k r hr)
  have hordered : ExpiryHeap s'.stickyFailureExpiry := hs' ▸ hheap
  split
  · refine ⟨⟨hindexed.deleteAvoidance _, hindexed.tracks_sticky _ hsticky,
      hindexed.tracks_deleteAvoidance hordered fun k r hk hr => ?_⟩,
      hwithin.trans (hindexed.deleteAvoidance_within _)⟩
    exact (hlive k r hr).resolve_left fun heq => hk (heq ▸ rfl)
  · next hstale =>
    refine ⟨⟨hindexed, hsticky,
      ⟨hordered, fun k r hr => (hlive k r hr).resolve_left fun heq => hstale ?_⟩⟩, hwithin⟩
    subst heq
    simp [hr]

/-- No record has expired. -/
structure Fresh (now : Millis) (c : StickyCache) : Prop where
  sticky : ∀ k r, c.sticky.get? k = some r → now < r.expiresAt
  avoidance : ∀ k r, c.stickyFailureAvoidance.get? k = some r → now < r.expiresAt

/-- The first loop of the clean-up: expired assignments. -/
def popSticky (now : Millis) (c : StickyCache) : StickyCache :=
  popExpired now stickyExpiry (fun c heap => { c with stickyExpiry := heap })
    (fun c expired =>
      if (c.sticky.get? expired.key).any fun r => decide (r.expiresAt = expired.expiresAt) then
        c.deleteSticky expired.key
      else c) c.stickyExpiry.length c

/-- The second loop of the clean-up: expired avoidances. -/
def popAvoidance (now : Millis) (c : StickyCache) : StickyCache :=
  popExpired now stickyFailureExpiry (fun c heap => { c with stickyFailureExpiry := heap })
    (fun c expired =>
      if (c.stickyFailureAvoidance.get? expired.key).any fun r =>
          decide (r.expiresAt = expired.expiresAt) then
        c.deleteStickyFailureAvoidance expired.key
      else c) c.stickyFailureExpiry.length c

theorem cleanupExpiredSticky_eq (c : StickyCache) (now : Millis) :
    c.cleanupExpiredSticky now = popAvoidance now (popSticky now c) := rfl

theorem Consistent.popSticky (h : c.Consistent) (now : Millis) :
    Evicting c (popSticky now c) ∧
      ∀ k r, (popSticky now c).sticky.get? k = some r → now < r.expiresAt := by
  have hspec : Evicting c (StickyCache.popSticky now c) ∧
      ∀ e ∈ (StickyCache.popSticky now c).stickyExpiry, now < e.expiresAt := by
    refine @popExpired_spec c now stickyExpiry _ _ (Evicting c)
      (fun s hs => hs.1.stickyHeap.ordered) (fun s first heap hs hheap hmem => ?_) h.evicting
    have hindexed : ({ s with stickyExpiry := heap } : StickyCache).Indexed :=
      ⟨hs.1.disjoint, hs.1.lru, hs.1.pools, hs.1.accounts⟩
    refine ⟨hs.popSticky hheap hmem rfl, ?_⟩
    dsimp only
    split
    · exact hindexed.stickyExpiry_deleteSticky _
    · rfl
  exact ⟨hspec.1, fun k r hr => hspec.2 _ (hspec.1.1.stickyHeap.live k r hr)⟩

theorem Consistent.popAvoidance (h : c.Consistent) (now : Millis) :
    Evicting c (popAvoidance now c) ∧
      ∀ k r, (popAvoidance now c).stickyFailureAvoidance.get? k = some r → now < r.expiresAt := by
  have hspec : Evicting c (StickyCache.popAvoidance now c) ∧
      ∀ e ∈ (StickyCache.popAvoidance now c).stickyFailureExpiry, now < e.expiresAt := by
    refine @popExpired_spec c now stickyFailureExpiry _ _ (Evicting c)
      (fun s hs => hs.1.avoidanceHeap.ordered) (fun s first heap hs hheap hmem => ?_) h.evicting
    have hindexed : ({ s with stickyFailureExpiry := heap } : StickyCache).Indexed :=
      ⟨hs.1.disjoint, hs.1.lru, hs.1.pools, hs.1.accounts⟩
    refine ⟨hs.popAvoidance hheap hmem rfl, ?_⟩
    dsimp only
    split
    · exact hindexed.stickyFailureExpiry_deleteAvoidance _
    · rfl
  exact ⟨hspec.1, fun k r hr => hspec.2 _ (hspec.1.1.avoidanceHeap.live k r hr)⟩

/-- After the clean-up no record has expired. -/
theorem Consistent.cleanupExpiredSticky (h : c.Consistent) (now : Millis) :
    Evicting c (c.cleanupExpiredSticky now) ∧ Fresh now (c.cleanupExpiredSticky now) := by
  rw [cleanupExpiredSticky_eq]
  obtain ⟨hfirst, hsticky⟩ := h.popSticky now
  obtain ⟨hsecond, havoidance⟩ := hfirst.1.popAvoidance now
  exact ⟨⟨hsecond.1, hfirst.2.trans hsecond.2⟩,
    fun k r hr => hsticky k r (hsecond.2.sticky k r hr), havoidance⟩

end StonePlus.Scheduler.StickyCache
