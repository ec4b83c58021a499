import StonePlus.Js.MapIndex
import StonePlus.Lib.Heap
import StonePlus.Scheduler.Sticky

/-!
# StonePlus.Scheduler.StickyIndexes

The expiry heaps of the sticky cache.

`Tracks` says that a heap is one and has the expiry of every live record; stale entries are
allowed.  Adding a record, rebuilding the heap and popping it keep `Tracks`.
-/

namespace StonePlus.Scheduler

open Lib

/-! ## The sifts are the library's -/

theorem siftUp_eq (entry : StickyExpiryEntry) (fuel : Nat) (heap : List StickyExpiryEntry)
    (index : Nat) :
    siftUp entry fuel heap index = Heap.siftUp StickyExpiryEntry.expiresAt entry fuel heap index := by
  induction fuel generalizing heap index with
  | zero => rfl
  | succ fuel ih =>
      unfold siftUp Heap.siftUp
      simp only [ih]
      rcases heap[(index - 1) / 2]? with _ | parent <;> rfl

theorem siftDown_eq (last : StickyExpiryEntry) (fuel : Nat) (heap : List StickyExpiryEntry)
    (index : Nat) :
    siftDown last fuel heap index =
      Heap.siftDown StickyExpiryEntry.expiresAt last fuel heap index := by
  induction fuel generalizing heap index with
  | zero => rfl
  | succ fuel ih =>
      unfold siftDown Heap.siftDown Heap.earlierChild
      simp only [ih]
      rcases heap[index * 2 + 1]? with _ | left
      · rfl
      · rcases heap[index * 2 + 1 + 1]? with _ | right <;> rfl

/-- An expiry heap: no entry is before its parent. -/
abbrev ExpiryHeap (heap : List StickyExpiryEntry) : Prop :=
  Heap.Ordered StickyExpiryEntry.expiresAt heap

theorem expiryHeap_nil : ExpiryHeap [] := fun j a b _ hb => by cases hb

theorem pushExpiry_spec (h : ExpiryHeap heap) (entry : StickyExpiryEntry) :
    ExpiryHeap (pushExpiry heap entry) ∧
      ∀ e, e = entry ∨ e ∈ heap → e ∈ pushExpiry heap entry := by
  rw [pushExpiry, siftUp_eq]
  refine ⟨Heap.ordered_siftUp (.of_append h entry) (le_refl _), fun e he => ?_⟩
  refine Heap.mem_siftUp (by simp) ?_
  rw [List.set_append_right _ _ (le_refl _)]
  simpa [or_comm] using he

/-- Popping takes the first entry and keeps the others. -/
theorem popExpiry_spec (h : ExpiryHeap (first :: rest)) :
    ∃ heap, popExpiry (first :: rest) = (some first, heap) ∧ ExpiryHeap heap ∧
      heap.length = rest.length ∧ ∀ e ∈ first :: rest, e = first ∨ e ∈ heap := by
  have hlast : (first :: rest).getLast? = some ((first :: rest).getLast (List.cons_ne_nil _ _)) :=
    List.getLast?_eq_some_getLast _
  have hall : (first :: rest).dropLast ++ [(first :: rest).getLast (List.cons_ne_nil _ _)] =
      first :: rest := List.dropLast_append_getLast _
  generalize (first :: rest).getLast (List.cons_ne_nil _ _) = last at hlast hall
  unfold popExpiry
  rw [hlast]
  dsimp only [List.head?_cons]
  by_cases hnil : (first :: rest).dropLast = []
  · have hrest : rest = [] := by
      cases rest with
      | nil => rfl
      | cons e rest => cases hnil
    subst hrest
    exact ⟨[], rfl, expiryHeap_nil, rfl, fun e he => .inl (List.mem_singleton.mp he)⟩
  · rw [if_neg hnil, siftDown_eq]
    refine ⟨_, rfl, Heap.ordered_siftDown (.of_dropLast h last hnil) (by omega), ?_, ?_⟩
    · rw [Heap.length_siftDown, List.length_dropLast]
      rfl
    · intro e he
      rw [← hall] at he
      obtain ⟨e', tail, hdrop⟩ := List.exists_cons_of_ne_nil hnil
      have hfirst : e' = first := by
        rw [hdrop] at hall
        exact (List.cons.inj hall).1
      rw [hdrop, hfirst] at he ⊢
      rw [List.cons_append, List.mem_cons] at he
      refine he.imp_right fun he => Heap.mem_siftDown (by simp) ?_
      rw [List.set_cons_zero, List.mem_cons]
      simpa [or_comm] using he

/-- A heap built from records. -/
theorem foldl_pushExpiry_spec (h : ExpiryHeap heap) (records : List (JsString × Millis)) :
    ExpiryHeap (records.foldl (fun heap record => pushExpiry heap ⟨record.1, record.2⟩) heap) ∧
      ∀ e, e ∈ heap ∨ (e.key, e.expiresAt) ∈ records →
        e ∈ records.foldl (fun heap record => pushExpiry heap ⟨record.1, record.2⟩) heap := by
  induction records generalizing heap with
  | nil => exact ⟨h, fun e he => by simpa using he⟩
  | cons record records ih =>
      obtain ⟨hheap, hmem⟩ := pushExpiry_spec h ⟨record.1, record.2⟩
      obtain ⟨hordered, hall⟩ := ih hheap
      refine ⟨hordered, fun e he => hall e ?_⟩
      rcases he with he | he
      · exact .inl (hmem e (.inr he))
      · rcases List.mem_cons.mp he with heq | he
        · exact .inl (hmem e (.inl (by cases e; cases heq; rfl)))
        · exact .inr he

/-! ## Live records -/

/-- The heap has an entry with the expiry of every live record. -/
structure Tracks (heap : List StickyExpiryEntry) (records : JsMap JsString StickyRecord) : Prop where
  ordered : ExpiryHeap heap
  live : ∀ k r, records.get? k = some r → ⟨k, r.expiresAt⟩ ∈ heap

theorem Tracks.empty : Tracks [] ∅ := ⟨expiryHeap_nil, fun _ _ h => by cases h⟩

/-- A record is added and the heap, which may have grown past its bound, is rebuilt. -/
theorem Tracks.set (h : Tracks heap records) (k : JsString) (r : StickyRecord) :
    Tracks (compactExpiryHeap (pushExpiry heap ⟨k, r.expiresAt⟩)
      (StickyCache.liveExpiries (records.set k r))) (records.set k r) := by
  obtain ⟨hordered, hmem⟩ := pushExpiry_spec h.ordered ⟨k, r.expiresAt⟩
  unfold compactExpiryHeap
  split
  · refine ⟨hordered, fun k' r' hr' => hmem _ ?_⟩
    rw [JsMap.get?_set] at hr'
    split at hr'
    · next heq =>
      cases hr'
      exact .inl (by rw [heq])
    · exact .inr (h.live k' r' hr')
  · obtain ⟨hbuilt, hall⟩ := foldl_pushExpiry_spec expiryHeap_nil
      (StickyCache.liveExpiries (records.set k r))
    refine ⟨hbuilt, fun k' r' hr' => hall _ (.inr ?_)⟩
    exact List.mem_map.mpr ⟨(k', r'), JsMap.get?_eq_some_iff.mp hr', rfl⟩

end StonePlus.Scheduler

/-!
## The indexes

The redundant indexes of the sticky cache.

`Indexed` says what the recency list, its per-pool lists and the reverse index by account
hold, in terms of the two record maps; `Consistent` adds the expiry heaps and `Valid` the
bounds.  Each helper of the cache gets one lemma: which records it leaves and that the
indexes still fit.
-/

namespace StonePlus.Scheduler.StickyCache

open Lib

/-! ## The invariant -/

/-- The recency entry that the records of a key call for. -/
def recordEntry (c : StickyCache) (k : JsString) : Option StickyLruEntry :=
  match c.sticky.get? k with
  | some r => some ⟨r.poolId, .assignment⟩
  | none => (c.stickyFailureAvoidance.get? k).map fun r => ⟨r.poolId, .avoidance⟩

/-- The indexes are those of the records: a key has an assignment or an avoidance, not both;
the recency list has exactly the keys with a record, tagged with its kind; the pools' lists
partition it; an account's keys are the ones assigned to it. -/
structure Indexed (c : StickyCache) : Prop where
  disjoint : ∀ k r, c.sticky.get? k = some r → c.stickyFailureAvoidance.get? k = none
  lru : ∀ k, c.stickyLru.get? k = c.recordEntry k
  pools : c.stickyLruByPool.Indexes fun k => (c.recordEntry k).map fun e => (e.poolId, e.kind)
  accounts : c.stickyKeysByAccount.Indexes fun k =>
    (c.sticky.get? k).map fun r => (r.accountId, ())

/-- The indexes and the expiry heaps fit the records. -/
structure Consistent (c : StickyCache) : Prop extends Indexed c where
  stickyHeap : Tracks c.stickyExpiry c.sticky
  avoidanceHeap : Tracks c.stickyFailureExpiry c.stickyFailureAvoidance

/-- The representation invariant: consistent, and within its bounds. -/
structure Valid (c : StickyCache) : Prop extends Consistent c where
  pool_pos : 0 < c.maxStickyEntriesPerPool
  pool_le : c.maxStickyEntriesPerPool ≤ c.maxStickyEntries
  size_le : c.stickyLru.size ≤ c.maxStickyEntries
  pool_size_le : ∀ poolId, (c.stickyLruByPool.group poolId).size ≤ c.maxStickyEntriesPerPool

/-- What remains is part of what was there, with the same bounds. -/
structure Within (c' c : StickyCache) : Prop where
  sticky : ∀ k r, c'.sticky.get? k = some r → c.sticky.get? k = some r
  avoidance : ∀ k r, c'.stickyFailureAvoidance.get? k = some r →
    c.stickyFailureAvoidance.get? k = some r
  maxStickyEntries : c'.maxStickyEntries = c.maxStickyEntries
  maxStickyEntriesPerPool : c'.maxStickyEntriesPerPool = c.maxStickyEntriesPerPool

variable {c c' c'' : StickyCache}

theorem Within.refl (c : StickyCache) : Within c c := ⟨fun _ _ => id, fun _ _ => id, rfl, rfl⟩

theorem Within.trans (h : Within c' c) (h' : Within c'' c') : Within c'' c where
  sticky := fun k r hr => h.sticky k r (h'.sticky k r hr)
  avoidance := fun k r hr => h.avoidance k r (h'.avoidance k r hr)
  maxStickyEntries := h'.maxStickyEntries.trans h.maxStickyEntries
  maxStickyEntriesPerPool := h'.maxStickyEntriesPerPool.trans h.maxStickyEntriesPerPool

theorem Within.sticky_none (h : Within c' c) (hk : c.sticky.get? k = none) :
    c'.sticky.get? k = none := by
  rcases hr : c'.sticky.get? k with _ | r
  · rfl
  · rw [h.sticky k r hr] at hk
    cases hk

theorem Within.avoidance_none (h : Within c' c) (hk : c.stickyFailureAvoidance.get? k = none) :
    c'.stickyFailureAvoidance.get? k = none := by
  rcases hr : c'.stickyFailureAvoidance.get? k with _ | r
  · rfl
  · rw [h.avoidance k r hr] at hk
    cases hk

theorem recordEntry_of_sticky (h : c.sticky.get? k = some r) :
    c.recordEntry k = some ⟨r.poolId, .assignment⟩ := by
  simp [recordEntry, h]

theorem recordEntry_of_avoidance (h : c.sticky.get? k = none)
    (hr : c.stickyFailureAvoidance.get? k = some r) :
    c.recordEntry k = some ⟨r.poolId, .avoidance⟩ := by
  simp [recordEntry, h, hr]

theorem recordEntry_of_none (h : c.sticky.get? k = none)
    (hr : c.stickyFailureAvoidance.get? k = none) : c.recordEntry k = none := by
  simp [recordEntry, h, hr]

/-- A record that remains keeps its recency entry. -/
theorem Within.recordEntry (h : Within c' c) (hc : c.Indexed) (he : c'.recordEntry k = some e) :
    c.recordEntry k = some e := by
  unfold StickyCache.recordEntry at he ⊢
  rcases hs : c'.sticky.get? k with _ | r
  · rw [hs] at he
    obtain ⟨r, hr, he⟩ := Option.map_eq_some_iff.mp he
    have hr := h.avoidance k r hr
    rcases hs : c.sticky.get? k with _ | r'
    · simp [hr, he]
    · rw [hc.disjoint k r' hs] at hr
      cases hr
  · rw [hs] at he
    rw [h.sticky k r hs]
    exact he

/-- Fewer records take less room, overall and in each pool. -/
theorem Within.size_le (h : Within c' c) (hc : c.Indexed) (hc' : c'.Indexed) :
    c'.stickyLru.size ≤ c.stickyLru.size := by
  refine JsMap.size_le_of_subset fun k hk => ?_
  obtain ⟨e, he⟩ := JsMap.mem_keys_iff.mp hk
  exact JsMap.mem_keys_iff.mpr ⟨e, hc.lru k ▸ h.recordEntry hc (hc'.lru k ▸ he)⟩

theorem Indexed.mem_pool (h : c.Indexed) :
    k ∈ (c.stickyLruByPool.group poolId).keys ↔ ∃ kind, c.recordEntry k = some ⟨poolId, kind⟩ := by
  rw [h.pools.mem_keys]
  refine exists_congr fun kind => ?_
  rw [Option.map_eq_some_iff]
  constructor
  · rintro ⟨⟨p, kind'⟩, he, heq⟩
    cases heq
    exact he
  · exact fun he => ⟨_, he, rfl⟩

theorem Within.pool_size_le (h : Within c' c) (hc : c.Indexed) (hc' : c'.Indexed)
    (poolId : JsString) :
    (c'.stickyLruByPool.group poolId).size ≤ (c.stickyLruByPool.group poolId).size := by
  refine JsMap.size_le_of_subset fun k hk => ?_
  obtain ⟨kind, he⟩ := hc'.mem_pool.mp hk
  exact hc.mem_pool.mpr ⟨kind, h.recordEntry hc he⟩

/-- Removing records keeps the bounds. -/
theorem Valid.of_within (hc : c.Valid) (h : Within c' c) (hc' : c'.Consistent) : c'.Valid where
  toConsistent := hc'
  pool_pos := h.maxStickyEntriesPerPool ▸ hc.pool_pos
  pool_le := h.maxStickyEntriesPerPool ▸ h.maxStickyEntries ▸ hc.pool_le
  size_le := h.maxStickyEntries ▸ (h.size_le hc.toIndexed hc'.toIndexed).trans hc.size_le
  pool_size_le := fun poolId => h.maxStickyEntriesPerPool ▸
    (h.pool_size_le hc.toIndexed hc'.toIndexed poolId).trans (hc.pool_size_le poolId)

/-- The keys of the recency list are those of the assignments and of the avoidances. -/
theorem Indexed.keys_perm (h : c.Indexed) :
    (c.sticky.keys ++ c.stickyFailureAvoidance.keys).Perm c.stickyLru.keys := by
  refine (List.perm_ext_iff_of_nodup (List.nodup_append'.mpr ⟨c.sticky.nodup_keys,
    c.stickyFailureAvoidance.nodup_keys, fun k hk hk' => ?_⟩) c.stickyLru.nodup_keys).mpr
    fun k => ?_
  · obtain ⟨r, hr⟩ := JsMap.mem_keys_iff.mp hk
    exact JsMap.get?_eq_none_iff.mp (h.disjoint k r hr) hk'
  · rw [List.mem_append, JsMap.mem_keys_iff, JsMap.mem_keys_iff, JsMap.mem_keys_iff, h.lru k]
    rcases hs : c.sticky.get? k with _ | r
    · rcases hr : c.stickyFailureAvoidance.get? k with _ | r <;> simp [recordEntry, hs, hr]
    · simp [recordEntry, hs]

/-! ## The recency list -/

theorem deleteStickyLru_of_none (h : c.stickyLru.get? k = none) (expectedKind : Option StickyKind) :
    c.deleteStickyLru k expectedKind = c := by
  simp [deleteStickyLru, h]

theorem deleteStickyLru_of_some (h : c.stickyLru.get? k = some e)
    (hkind : ∀ kind, expectedKind = some kind → e.kind = kind) :
    c.deleteStickyLru k expectedKind = { c with
      stickyLru := c.stickyLru.delete k
      stickyLruByPool := c.stickyLruByPool.dropIn e.poolId k } := by
  have hsame : (expectedKind.any fun kind => decide (e.kind ≠ kind)) = false := by
    rcases expectedKind with _ | kind
    · rfl
    · simp [hkind kind rfl]
  unfold deleteStickyLru JsMap.dropIn
  simp only [h, hsame]
  rcases c.stickyLruByPool.get? e.poolId with _ | poolLru <;> rfl

/-- Touching a record that is there moves its key to the end of both lists. -/
theorem Indexed.touchStickyLru (h : c.Indexed) (hk : c.recordEntry k = some ⟨poolId, kind⟩) :
    (c.touchStickyLru k poolId kind).Indexed := by
  unfold StickyCache.touchStickyLru
  rw [deleteStickyLru_of_some ((h.lru k).trans hk) (by simp)]
  refine ⟨h.disjoint, fun k' => ?_, ?_, h.accounts⟩
  · show ((c.stickyLru.delete k).set k ⟨poolId, kind⟩).get? k' = c.recordEntry k'
    rw [JsMap.get?_set, JsMap.get?_delete]
    split
    · next heq => rw [heq, hk]
    · exact h.lru k'
  · have hpools := (h.pools.dropIn (g := poolId) (k := k) (v := kind) (by simp [hk])).putIn poolId
      kind (Function.update_self ..)
    rw [Function.update_idem, Function.update_eq_self_iff.mpr (by simp [hk])] at hpools
    exact hpools

/-! ## Deleting a record -/

theorem deleteSticky_of_none (h : c.sticky.get? k = none) : c.deleteSticky k = c := by
  simp [deleteSticky, h]

theorem Indexed.deleteSticky_of_some (h : c.Indexed) (hr : c.sticky.get? k = some r) :
    c.deleteSticky k = { c with
      sticky := c.sticky.delete k
      stickyLru := c.stickyLru.delete k
      stickyLruByPool := c.stickyLruByPool.dropIn r.poolId k
      stickyKeysByAccount := c.stickyKeysByAccount.dropIn r.accountId k } := by
  have hlru : ({ c with sticky := c.sticky.delete k } : StickyCache).stickyLru.get? k =
      some ⟨r.poolId, .assignment⟩ := (h.lru k).trans (recordEntry_of_sticky hr)
  unfold StickyCache.deleteSticky JsMap.dropIn
  simp only [hr]
  rw [deleteStickyLru_of_some hlru (by simp)]
  dsimp only
  rcases c.stickyKeysByAccount.get? r.accountId with _ | keys <;> rfl

theorem deleteAvoidance_of_none (h : c.stickyFailureAvoidance.get? k = none) :
    c.deleteStickyFailureAvoidance k = c := by
  simp [deleteStickyFailureAvoidance, JsMap.has, h]

theorem Indexed.sticky_none (h : c.Indexed) (hr : c.stickyFailureAvoidance.get? k = some r) :
    c.sticky.get? k = none := by
  rcases hs : c.sticky.get? k with _ | r'
  · rfl
  · rw [h.disjoint k r' hs] at hr
    cases hr

theorem Indexed.deleteAvoidance_of_some (h : c.Indexed)
    (hr : c.stickyFailureAvoidance.get? k = some r) : c.deleteStickyFailureAvoidance k = { c with
      stickyFailureAvoidance := c.stickyFailureAvoidance.delete k
      stickyLru := c.stickyLru.delete k
      stickyLruByPool := c.stickyLruByPool.dropIn r.poolId k } := by
  have hlru : ({ c with stickyFailureAvoidance := c.stickyFailureAvoidance.delete k } :
      StickyCache).stickyLru.get? k = some ⟨r.poolId, .avoidance⟩ :=
    (h.lru k).trans (recordEntry_of_avoidance (h.sticky_none hr) hr)
  have hhas : c.stickyFailureAvoidance.has k = true := by simp [JsMap.has, hr]
  rw [StickyCache.deleteStickyFailureAvoidance, if_pos hhas,
    deleteStickyLru_of_some hlru (by simp)]

/-- The indexes after a record is deleted, whichever map it was in. -/
theorem Indexed.of_update (h : c.Indexed) (he : c.recordEntry k = some e)
    (hentry : c'.recordEntry = Function.update c.recordEntry k none)
    (hlru : c'.stickyLru = c.stickyLru.delete k)
    (hpools : c'.stickyLruByPool = c.stickyLruByPool.dropIn e.poolId k) :
    (∀ k', c'.stickyLru.get? k' = c'.recordEntry k') ∧
      c'.stickyLruByPool.Indexes fun k' =>
        (c'.recordEntry k').map fun e => (e.poolId, e.kind) := by
  constructor
  · intro k'
    rw [hlru, hentry, JsMap.get?_delete, Function.update_apply, h.lru k']
  · have hdrop := h.pools.dropIn (g := e.poolId) (k := k) (v := e.kind) (by simp [he])
    rw [hpools, hentry]
    convert hdrop using 1
    funext k'
    by_cases hk' : k' = k <;> simp [hk']

theorem Indexed.deleteSticky (h : c.Indexed) (k : JsString) : (c.deleteSticky k).Indexed := by
  rcases hr : c.sticky.get? k with _ | r
  · rwa [deleteSticky_of_none hr]
  · have heq := h.deleteSticky_of_some hr
    have hentry : (c.deleteSticky k).recordEntry = Function.update c.recordEntry k none := by
      funext k'
      rw [heq, Function.update_apply]
      by_cases hk' : k' = k
      · simp [recordEntry, hk', h.disjoint k r hr]
      · simp [recordEntry, hk', JsMap.get?_delete]
    obtain ⟨hlru, hpools⟩ := h.of_update (recordEntry_of_sticky hr) hentry (by rw [heq])
      (by rw [heq])
    refine ⟨fun k' r' hr' => ?_, hlru, hpools, ?_⟩
    · rw [heq] at hr' ⊢
      rw [JsMap.get?_delete] at hr'
      split at hr'
      · cases hr'
      · exact h.disjoint k' r' hr'
    · have hdrop := h.accounts.dropIn (g := r.accountId) (k := k) (v := ()) (by simp [hr])
      rw [heq]
      convert hdrop using 1
      funext k'
      by_cases hk' : k' = k <;> simp [hk', JsMap.get?_delete]

theorem Indexed.deleteAvoidance (h : c.Indexed) (k : JsString) :
    (c.deleteStickyFailureAvoidance k).Indexed := by
  rcases hr : c.stickyFailureAvoidance.get? k with _ | r
  · rwa [deleteAvoidance_of_none hr]
  · have heq := h.deleteAvoidance_of_some hr
    have hs := h.sticky_none hr
    have hentry : (c.deleteStickyFailureAvoidance k).recordEntry =
        Function.update c.recordEntry k none := by
      funext k'
      rw [heq, Function.update_apply]
      by_cases hk' : k' = k
      · simp [recordEntry, hk', hs]
      · simp [recordEntry, hk', JsMap.get?_delete]
    obtain ⟨hlru, hpools⟩ := h.of_update (recordEntry_of_avoidance hs hr) hentry (by rw [heq])
      (by rw [heq])
    refine ⟨fun k' r' hr' => ?_, hlru, hpools, ?_⟩
    · rw [heq] at hr' ⊢
      rw [JsMap.get?_delete, h.disjoint k' r' hr', ite_self]
    · rw [heq]
      exact h.accounts

/-! ## What deleting leaves -/

theorem Indexed.deleteSticky_within (h : c.Indexed) (k : JsString) :
    Within (c.deleteSticky k) c := by
  rcases hr : c.sticky.get? k with _ | r
  · rw [deleteSticky_of_none hr]
    exact .refl c
  · rw [h.deleteSticky_of_some hr]
    refine ⟨fun k' r' hr' => ?_, fun _ _ => id, rfl, rfl⟩
    rw [JsMap.get?_delete] at hr'
    split at hr'
    · cases hr'
    · exact hr'

theorem Indexed.get?_deleteSticky (h : c.Indexed) (k : JsString) :
    (c.deleteSticky k).sticky.get? k = none := by
  rcases hr : c.sticky.get? k with _ | r
  · rwa [deleteSticky_of_none hr]
  · rw [h.deleteSticky_of_some hr]
    exact JsMap.get?_delete_self ..

theorem Indexed.deleteAvoidance_within (h : c.Indexed) (k : JsString) :
    Within (c.deleteStickyFailureAvoidance k) c := by
  rcases hr : c.stickyFailureAvoidance.get? k with _ | r
  · rw [deleteAvoidance_of_none hr]
    exact .refl c
  · rw [h.deleteAvoidance_of_some hr]
    refine ⟨fun _ _ => id, fun k' r' hr' => ?_, rfl, rfl⟩
    rw [JsMap.get?_delete] at hr'
    split at hr'
    · cases hr'
    · exact hr'

theorem Indexed.get?_deleteAvoidance (h : c.Indexed) (k : JsString) :
    (c.deleteStickyFailureAvoidance k).stickyFailureAvoidance.get? k = none := by
  rcases hr : c.stickyFailureAvoidance.get? k with _ | r
  · rwa [deleteAvoidance_of_none hr]
  · rw [h.deleteAvoidance_of_some hr]
    exact JsMap.get?_delete_self ..

theorem Indexed.stickyExpiry_deleteSticky (h : c.Indexed) (k : JsString) :
    (c.deleteSticky k).stickyExpiry = c.stickyExpiry := by
  rcases hr : c.sticky.get? k with _ | r
  · rw [deleteSticky_of_none hr]
  · rw [h.deleteSticky_of_some hr]

theorem Indexed.stickyFailureExpiry_deleteAvoidance (h : c.Indexed) (k : JsString) :
    (c.deleteStickyFailureAvoidance k).stickyFailureExpiry = c.stickyFailureExpiry := by
  rcases hr : c.stickyFailureAvoidance.get? k with _ | r
  · rw [deleteAvoidance_of_none hr]
  · rw [h.deleteAvoidance_of_some hr]

/-- A heap that follows the assignments, the popped entry of `k` apart, follows them once the
assignment of `k` is gone. -/
theorem Indexed.tracks_deleteSticky (h : c.Indexed) (hordered : ExpiryHeap c.stickyExpiry)
    (hlive : ∀ k' r, k' ≠ k → c.sticky.get? k' = some r → ⟨k', r.expiresAt⟩ ∈ c.stickyExpiry) :
    Tracks (c.deleteSticky k).stickyExpiry (c.deleteSticky k).sticky := by
  rw [h.stickyExpiry_deleteSticky]
  refine ⟨hordered, fun k' r hr => ?_⟩
  by_cases hk : k' = k
  · rw [hk, h.get?_deleteSticky] at hr
    cases hr
  · exact hlive k' r hk ((h.deleteSticky_within k).sticky k' r hr)

theorem Indexed.tracks_deleteAvoidance (h : c.Indexed)
    (hordered : ExpiryHeap c.stickyFailureExpiry)
    (hlive : ∀ k' r, k' ≠ k → c.stickyFailureAvoidance.get? k' = some r →
      ⟨k', r.expiresAt⟩ ∈ c.stickyFailureExpiry) :
    Tracks (c.deleteStickyFailureAvoidance k).stickyFailureExpiry
      (c.deleteStickyFailureAvoidance k).stickyFailureAvoidance := by
  rw [h.stickyFailureExpiry_deleteAvoidance]
  refine ⟨hordered, fun k' r hr => ?_⟩
  by_cases hk : k' = k
  · rw [hk, h.get?_deleteAvoidance] at hr
    cases hr
  · exact hlive k' r hk ((h.deleteAvoidance_within k).avoidance k' r hr)

/-- Deleting an assignment leaves the avoidances as they are. -/
theorem Indexed.tracks_avoidance (h : c.Indexed) (k : JsString)
    (hheap : Tracks c.stickyFailureExpiry c.stickyFailureAvoidance) :
    Tracks (c.deleteSticky k).stickyFailureExpiry (c.deleteSticky k).stickyFailureAvoidance := by
  rcases hr : c.sticky.get? k with _ | r
  · rwa [deleteSticky_of_none hr]
  · rwa [h.deleteSticky_of_some hr]

/-- Deleting an avoidance leaves the assignments as they are. -/
theorem Indexed.tracks_sticky (h : c.Indexed) (k : JsString)
    (hheap : Tracks c.stickyExpiry c.sticky) :
    Tracks (c.deleteStickyFailureAvoidance k).stickyExpiry
      (c.deleteStickyFailureAvoidance k).sticky := by
  rcases hr : c.stickyFailureAvoidance.get? k with _ | r
  · rwa [deleteAvoidance_of_none hr]
  · rwa [h.deleteAvoidance_of_some hr]

theorem Consistent.deleteSticky (h : c.Consistent) (k : JsString) :
    (c.deleteSticky k).Consistent where
  toIndexed := h.toIndexed.deleteSticky k
  stickyHeap := h.tracks_deleteSticky h.stickyHeap.ordered fun k' r _ => h.stickyHeap.live k' r
  avoidanceHeap := h.tracks_avoidance k h.avoidanceHeap

theorem Consistent.deleteAvoidance (h : c.Consistent) (k : JsString) :
    (c.deleteStickyFailureAvoidance k).Consistent where
  toIndexed := h.toIndexed.deleteAvoidance k
  stickyHeap := h.tracks_sticky k h.stickyHeap
  avoidanceHeap := h.tracks_deleteAvoidance h.avoidanceHeap.ordered
    fun k' r _ => h.avoidanceHeap.live k' r

theorem Consistent.touchStickyLru (h : c.Consistent) (hk : c.recordEntry k = some ⟨poolId, kind⟩) :
    (c.touchStickyLru k poolId kind).Consistent where
  toIndexed := h.toIndexed.touchStickyLru hk
  stickyHeap := by
    unfold StickyCache.touchStickyLru
    rw [deleteStickyLru_of_some ((h.lru k).trans hk) (by simp)]
    exact h.stickyHeap
  avoidanceHeap := by
    unfold StickyCache.touchStickyLru
    rw [deleteStickyLru_of_some ((h.lru k).trans hk) (by simp)]
    exact h.avoidanceHeap

theorem Indexed.touchStickyLru_within (h : c.Indexed) (hk : c.recordEntry k = some ⟨poolId, kind⟩) :
    Within (c.touchStickyLru k poolId kind) c := by
  unfold StickyCache.touchStickyLru
  rw [deleteStickyLru_of_some ((h.lru k).trans hk) (by simp)]
  exact ⟨fun _ _ => id, fun _ _ => id, rfl, rfl⟩

end StonePlus.Scheduler.StickyCache
