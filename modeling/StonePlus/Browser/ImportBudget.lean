import StonePlus.Browser.ImportQueue
import StonePlus.Js.MapIndex

/-!
# StonePlus.Browser.ImportBudget

The budget of the queue: what the ready items take, and when a download is refused.

A size is charged when the file has been read, but checked before.  The bound on the items that
are ready or downloading holds in every run; the bound on the bytes as long as no other checked
download stops fitting when a size is charged.
-/

namespace StonePlus.Browser.BrowserImportQueue

open Lib

variable {s : BrowserImportQueue} {id : Nat} {item : PrivateQueueItem} {stage : Stage}

def isLive (item : PrivateQueueItem) : Bool := decide (item.status ≠ .failed)

/-! ## What the items take -/

def readyBytes (s : BrowserImportQueue) : Nat :=
  s.items.total fun item => if item.status = .ready then item.sizeBytes else 0

/-- The items that are ready or downloading. -/
def liveCount (s : BrowserImportQueue) : Nat :=
  s.items.total fun item => if isLive item then 1 else 0

def liveBytes (s : BrowserImportQueue) : Nat :=
  s.items.total fun item => if isLive item then item.sizeBytes else 0

/-- An item holds its text from the moment its size is charged. -/
def chargedSize (item : PrivateQueueItem) : Nat := if item.content.isSome then item.sizeBytes else 0

def chargedBytes (s : BrowserImportQueue) : Nat := s.items.total chargedSize

/-- The size that has passed the check and is not charged. -/
def checkedSize? : Stage → Option Nat
  | .readFile size => some size
  | _ => none

/-- The downloads in the queue whose sizes are checked and not charged. -/
def checked (s : BrowserImportQueue) : List (Nat × Nat) :=
  s.downloads.entries.filterMap fun e =>
    if s.items.has e.1 then (checkedSize? e.2).map (e.1, ·) else none

theorem mem_checked : (id, size) ∈ s.checked ↔
    s.downloads.get? id = some (.readFile size) ∧ ∃ item, s.items.get? id = some item := by
  have hstage : ∀ stage, checkedSize? stage = some size ↔ stage = .readFile size := by
    intro stage
    cases stage <;> simp [checkedSize?]
  simp only [checked, List.mem_filterMap, Prod.exists, JsMap.get?_eq_some_iff]
  constructor
  · rintro ⟨id', stage, hmem, h⟩
    split at h
    · rename_i hhas
      obtain ⟨size', hsize, heq⟩ := Option.map_eq_some_iff.mp h
      obtain ⟨rfl, rfl⟩ := Prod.mk.inj heq
      obtain ⟨item, hitem⟩ := Option.isSome_iff_exists.mp hhas
      exact ⟨(hstage stage).mp hsize ▸ hmem, item, JsMap.get?_eq_some_iff.mp hitem⟩
    · contradiction
  · rintro ⟨hmem, item, hitem⟩
    refine ⟨id, _, hmem, ?_⟩
    simp [JsMap.has, JsMap.get?_eq_some_iff.mpr hitem, checkedSize?]

/-! ## Updates -/

theorem get?_updateItem (s : BrowserImportQueue) (id id' : Nat)
    (f : PrivateQueueItem → PrivateQueueItem) :
    (s.updateItem id f).items.get? id' =
      if id' = id then (s.items.get? id).map f else s.items.get? id' := by
  unfold updateItem
  cases h : s.items.get? id with
  | none =>
    by_cases hid : id' = id
    · simp [hid, h]
    · simp [hid]
  | some item => simp [JsMap.get?_set]

@[simp] theorem downloads_updateItem (f : PrivateQueueItem → PrivateQueueItem) :
    (s.updateItem id f).downloads = s.downloads := by
  unfold updateItem
  split <;> rfl

@[simp] theorem nextId_updateItem (f : PrivateQueueItem → PrivateQueueItem) :
    (s.updateItem id f).nextId = s.nextId := by
  unfold updateItem
  split <;> rfl

theorem total_updateItem_le {f : PrivateQueueItem → PrivateQueueItem} (w : PrivateQueueItem → Nat)
    {more : Nat} (h : ∀ item, s.items.get? id = some item → w (f item) ≤ w item + more) :
    (s.updateItem id f).items.total w ≤ s.items.total w + more := by
  unfold updateItem
  split
  · rename_i item hitem
    have hset := JsMap.total_set_of_get? w (f item) hitem
    have := h item hitem
    simp only
    omega
  · simp

/-! ## What holds in every run -/

/-- What is known of an item while its download waits. -/
def Waiting : Stage → PrivateQueueItem → Prop
  | .done, item | .stat, item | .readFile _, item =>
    item.status = .downloading ∧ item.content = none
  | .cacheDownload, item => item.status = .downloading ∧ item.content.isSome = true
  | .rm, _ => True

structure Sound (s : BrowserImportQueue) : Prop where
  id : ∀ id item, s.items.get? id = some item → item.id = id ∧ id < s.nextId
  download : ∀ id stage, s.downloads.get? id = some stage → id < s.nextId
  waiting : ∀ id stage item, s.downloads.get? id = some stage → s.items.get? id = some item →
    Waiting stage item
  ready : ∀ id item, s.items.get? id = some item → item.status = .ready → item.content.isSome = true
  live : s.liveCount ≤ maxQueueItems

theorem sound_empty : Sound empty where
  id := by simp [empty, JsMap.empty, JsMap.get?, JsMap.lookup]
  download := by simp [empty, JsMap.empty, JsMap.get?, JsMap.lookup]
  waiting := by simp [empty, JsMap.empty, JsMap.get?, JsMap.lookup]
  ready := by simp [empty, JsMap.empty, JsMap.get?, JsMap.lookup]
  live := by simp [empty, liveCount]

/-- A call changes its own item and what it waits for. -/
theorem Sound.update (h : Sound s) (hid : s.downloads.get? id = some old)
    (hf : ∀ item, s.items.get? id = some item → (f item).id = item.id ∧ Waiting stage (f item) ∧
      ((f item).status = .ready → (f item).content.isSome = true) ∧
      (isLive (f item) = true → isLive item = true)) :
    Sound ((s.updateItem id f).setStage id stage) where
  id := by
    intro id' item hitem
    simp only [setStage, nextId_updateItem, get?_updateItem] at hitem ⊢
    split at hitem
    · rename_i hsame
      obtain ⟨before, hbefore, rfl⟩ := Option.map_eq_some_iff.mp hitem
      rw [(hf before hbefore).1, hsame]
      exact h.id id before hbefore
    · exact h.id id' item hitem
  download := by
    intro id' stage' hstage
    simp only [setStage, nextId_updateItem, downloads_updateItem, JsMap.get?_set] at hstage ⊢
    split at hstage
    · rename_i hsame
      exact hsame ▸ h.download id old hid
    · exact h.download id' stage' hstage
  waiting := by
    intro id' stage' item hstage hitem
    simp only [setStage, downloads_updateItem, JsMap.get?_set, get?_updateItem] at hstage hitem
    split at hitem
    · rename_i hsame
      obtain ⟨before, hbefore, rfl⟩ := Option.map_eq_some_iff.mp hitem
      rw [if_pos hsame] at hstage
      exact Option.some.inj hstage ▸ (hf before hbefore).2.1
    · rename_i hother
      rw [if_neg hother] at hstage
      exact h.waiting id' stage' item hstage hitem
  ready := by
    intro id' item hitem hready
    simp only [setStage, get?_updateItem] at hitem
    split at hitem
    · obtain ⟨before, hbefore, rfl⟩ := Option.map_eq_some_iff.mp hitem
      exact (hf before hbefore).2.2.1 hready
    · exact h.ready id' item hitem hready
  live := by
    have hle : (s.updateItem id f).liveCount ≤ s.liveCount + 0 :=
      total_updateItem_le _ fun item hitem => by
        have hlive := (hf item hitem).2.2.2
        by_cases hafter : isLive (f item) = true
        · simp [hafter, hlive hafter]
        · simp [hafter]
    exact hle.trans h.live

theorem Sound.setStage (h : Sound s) (hid : id < s.nextId)
    (hwaiting : ∀ item, s.items.get? id = some item → Waiting stage item) :
    Sound (s.setStage id stage) where
  id := h.id
  download := by
    intro id' stage' hstage
    simp only [BrowserImportQueue.setStage, JsMap.get?_set] at hstage
    split at hstage
    · rename_i hsame
      exact hsame ▸ hid
    · exact h.download id' stage' hstage
  waiting := by
    intro id' stage' item hstage hitem
    simp only [BrowserImportQueue.setStage, JsMap.get?_set] at hstage
    split at hstage
    · rename_i hsame
      exact Option.some.inj hstage ▸ hwaiting item (hsame ▸ hitem)
    · exact h.waiting id' stage' item hstage hitem
  ready := h.ready
  live := h.live

theorem Sound.fail (h : Sound s) (hid : s.downloads.get? id = some old) (message : JsString) :
    Sound (s.fail id message) :=
  h.update hid fun item _ => ⟨rfl, trivial, by simp, by simp [isLive]⟩

theorem Sound.endDownload (h : Sound s) (id : Nat) : Sound (s.endDownload id) where
  id := h.id
  download := by
    intro id' stage hstage
    simp only [BrowserImportQueue.endDownload, JsMap.get?_delete] at hstage
    split at hstage
    · contradiction
    · exact h.download id' stage hstage
  waiting := by
    intro id' stage item hstage hitem
    simp only [BrowserImportQueue.endDownload, JsMap.get?_delete] at hstage
    split at hstage
    · contradiction
    · exact h.waiting id' stage item hstage hitem
  ready := h.ready
  live := h.live

theorem Sound.keep (h : Sound s) (keep : Nat → Bool) :
    Sound { s with items := s.items.filterKeys keep } where
  id := by
    intro id item hitem
    rw [JsMap.get?_filterKeys] at hitem
    split at hitem
    · exact h.id id item hitem
    · contradiction
  download := h.download
  waiting := by
    intro id stage item hstage hitem
    rw [JsMap.get?_filterKeys] at hitem
    split at hitem
    · exact h.waiting id stage item hstage hitem
    · contradiction
  ready := by
    intro id item hitem
    rw [JsMap.get?_filterKeys] at hitem
    split at hitem
    · exact h.ready id item hitem
    · contradiction
  live := (JsMap.total_filterKeys_le _ _ _).trans h.live

/-- A new item is failed, or it is downloading and there was room for it. -/
theorem Sound.insert (h : Sound s) {item : PrivateQueueItem} (hid : item.id = s.nextId)
    (hcontent : item.content = none) (hready : item.status ≠ .ready)
    (hlive : isLive item = true → s.items.size < maxQueueItems) :
    Sound { s with items := s.items.set s.nextId item, nextId := s.nextId + 1 } where
  id := by
    intro id' item' hitem
    simp only [JsMap.get?_set] at hitem ⊢
    split at hitem
    · rename_i hsame
      obtain rfl := Option.some.inj hitem
      exact ⟨hid.trans hsame.symm, by omega⟩
    · have := h.id id' item' hitem
      exact ⟨this.1, by omega⟩
  download := by
    intro id' stage hstage
    have := h.download id' stage hstage
    simp only
    omega
  waiting := by
    intro id' stage item' hstage hitem
    have hlt := h.download id' stage hstage
    rw [JsMap.get?_set, if_neg (by omega)] at hitem
    exact h.waiting id' stage item' hstage hitem
  ready := by
    intro id' item' hitem hstatus
    simp only [JsMap.get?_set] at hitem
    split at hitem
    · obtain rfl := Option.some.inj hitem
      exact absurd hstatus hready
    · exact h.ready id' item' hitem hstatus
  live := by
    have hfresh : s.nextId ∉ s.items.keys := by
      intro hmem
      obtain ⟨old, hold⟩ := JsMap.mem_keys_iff.mp hmem
      have := (h.id _ _ hold).2
      omega
    have htotal := JsMap.total_set_of_not_mem (fun item => if isLive item then 1 else 0) item hfresh
    have hsize : s.liveCount ≤ s.items.size := JsMap.total_one_le_size _ fun item => by
      split <;> omega
    have hle := h.live
    simp only [liveCount] at hsize hle ⊢
    rw [htotal]
    by_cases hitem : isLive item = true
    · have := hlive hitem
      simp only [hitem, if_true]
      omega
    · simp only [hitem]
      simpa using hle

theorem Sound.stageDownload (h : Sound s) (totalBytes : Int) (staging : Staging) :
    Sound (s.stageDownload totalBytes staging) := by
  unfold BrowserImportQueue.stageDownload
  simp only
  split
  · exact h.insert rfl rfl (by simp) (by simp [isLive])
  · rename_i hroom
    split
    · exact h.insert rfl rfl (by simp) (by simp [isLive])
    · have hsize : s.items.size < maxQueueItems := by
        simp only [not_or, Nat.not_le] at hroom
        exact hroom.1
      let added : PrivateQueueItem := ⟨s.nextId, totalBytes.toNat, .downloading, none, none⟩
      have hadded := @Sound.insert s h added rfl rfl (by simp [added]) fun _ => hsize
      cases staging with
      | directoryFails => exact ⟨fun id item hitem => ⟨(h.id id item hitem).1,
          (h.id id item hitem).2.trans (Nat.lt_succ_self _)⟩,
          fun id stage hstage => (h.download id stage hstage).trans (Nat.lt_succ_self _),
          h.waiting, h.ready, h.live⟩
      | listenerFails => exact hadded
      | registered =>
        refine hadded.setStage (Nat.lt_succ_self _) fun item hitem => ?_
        simp only [JsMap.get?_set, if_true, Option.some.injEq] at hitem
        simp [Waiting, ← hitem, added]

theorem Sound.step (h : Sound s) (event : Event) : Sound (s.step event) := by
  cases event with
  | willDownload totalBytes staging => exact h.stageDownload totalBytes staging
  | done id state =>
    simp only [BrowserImportQueue.step]
    split
    · rename_i hid
      unfold finishDownload
      split
      · exact h.endDownload id
      · split
        · exact h.fail hid _
        · exact h.setStage (h.download id _ hid) fun item hitem => h.waiting id .done item hid hitem
    · exact h
  | stat id result =>
    simp only [BrowserImportQueue.step]
    split
    · rename_i hid
      unfold afterStat
      split
      · exact h.fail hid _
      · split
        · exact h.fail hid _
        · split
          · exact h.fail hid _
          · split
            · exact h.fail hid _
            · exact h.setStage (h.download id _ hid) fun item hitem =>
                h.waiting id .stat item hid hitem
    · exact h
  | readFile id result =>
    simp only [BrowserImportQueue.step]
    split
    · rename_i size hid
      unfold afterRead
      split
      · exact h.fail hid _
      · split
        · exact h.fail hid _
        · refine h.update hid fun item hitem => ?_
          have hwaiting := h.waiting id _ item hid hitem
          simp_all [Waiting, isLive]
    · exact h
  | cacheDownload id result =>
    simp only [BrowserImportQueue.step]
    split
    · rename_i hid
      refine h.update hid fun item hitem => ?_
      have hwaiting := h.waiting id _ item hid hitem
      simp_all [Waiting, isLive]
    · exact h
  | rm id =>
    simp only [BrowserImportQueue.step]
    split
    · exact h.endDownload id
    · exact h
  | removeMany ids => exact h.keep _
  | clear =>
    have hempty : JsMap.empty = s.items.filterKeys fun _ => false := by
      simp [JsMap.filterKeys, JsMap.empty]
    simp only [BrowserImportQueue.step, hempty]
    exact h.keep _

/-! ## Bytes -/

/-- When a size is charged, every other checked download still fits.  At the start of a download
of at most 4 MiB the failed items in the queue take nothing that it lacks. -/
def Fits (s : BrowserImportQueue) : Event → Prop
  | .willDownload totalBytes _ => totalBytes.toNat ≤ maxItemBytes →
      (maxQueueItems ≤ s.items.size → ∀ item ∈ s.items.values, isLive item = true) ∧
      (maxQueueBytes < s.currentBytes none + totalBytes.toNat →
        ∀ item ∈ s.items.values, isLive item = false → item.sizeBytes = 0)
  | .readFile id (.ok content) => (Json.parse content).isSome = true →
      ∀ p ∈ s.checked, p.1 = id → ∀ q ∈ s.checked, q.1 ≠ id →
        s.chargedBytes + p.2 + q.2 ≤ maxQueueBytes
  | _ => True

/-- A download of at most 4 MiB is refused only if it would exceed a bound. -/
def RefusesRightly (s : BrowserImportQueue) : Event → Prop
  | .willDownload totalBytes staging => totalBytes.toNat ≤ maxItemBytes →
      ∀ item, (s.stageDownload totalBytes staging).items.get? s.nextId = some item →
        item.status = .failed →
          maxQueueItems < s.liveCount + 1 ∨ maxQueueBytes < s.liveBytes + totalBytes.toNat
  | _ => True

/-- What is charged fits, also together with any one size that is checked. -/
structure Charged (s : BrowserImportQueue) : Prop where
  charged : s.chargedBytes ≤ maxQueueBytes
  checked : ∀ p ∈ s.checked, s.chargedBytes + p.2 ≤ maxQueueBytes

theorem Charged.mono (h : Charged s) (hle : s'.chargedBytes ≤ s.chargedBytes)
    (hsub : ∀ id size, (id, size) ∈ s'.checked → (id, size) ∈ s.checked) : Charged s' where
  charged := hle.trans h.charged
  checked p hp := (Nat.add_le_add_right hle _).trans (h.checked p (hsub p.1 p.2 hp))

/-- A call that goes on and has checked no size leaves fewer sizes checked. -/
theorem mem_checked_of_update (hstage : checkedSize? stage = none)
    (h : (id', size) ∈ ((s.updateItem id f).setStage id stage).checked) :
    id' ≠ id ∧ (id', size) ∈ s.checked := by
  obtain ⟨hget, item, hitem⟩ := mem_checked.mp h
  simp only [setStage, downloads_updateItem, JsMap.get?_set, get?_updateItem] at hget hitem
  split at hget
  · obtain rfl := Option.some.inj hget
    simp [checkedSize?] at hstage
  · rename_i hne
    rw [if_neg hne] at hitem
    exact ⟨hne, mem_checked.mpr ⟨hget, item, hitem⟩⟩

theorem Charged.update (h : Charged s) (hstage : checkedSize? stage = none)
    (hf : ∀ item, s.items.get? id = some item → chargedSize (f item) ≤ chargedSize item) :
    Charged ((s.updateItem id f).setStage id stage) := by
  refine h.mono ?_ fun id' size hmem => (mem_checked_of_update hstage hmem).2
  exact @total_updateItem_le s id f chargedSize 0 fun item hitem => hf item hitem

theorem Charged.fail (h : Charged s) (id : Nat) (message : JsString) :
    Charged (s.fail id message) :=
  h.update rfl fun item _ => by simp [chargedSize]

theorem Charged.setStage (h : Charged s)
    (hstage : ∀ size, checkedSize? stage = some size → ∀ item, s.items.get? id = some item →
      s.chargedBytes + size ≤ maxQueueBytes) :
    Charged (s.setStage id stage) where
  charged := h.charged
  checked := by
    rintro ⟨id', size⟩ hp
    obtain ⟨hget, item, hitem⟩ := mem_checked.mp hp
    simp only [BrowserImportQueue.setStage, JsMap.get?_set] at hget hitem
    split at hget
    · rename_i hsame
      obtain rfl := Option.some.inj hget
      exact hstage size rfl item (hsame ▸ hitem)
    · exact h.checked (id', size) (mem_checked.mpr ⟨hget, item, hitem⟩)

theorem Charged.endDownload (h : Charged s) (id : Nat) : Charged (s.endDownload id) := by
  refine h.mono le_rfl fun id' size hmem => ?_
  obtain ⟨hget, item, hitem⟩ := mem_checked.mp hmem
  simp only [BrowserImportQueue.endDownload, JsMap.get?_delete] at hget
  split at hget
  · contradiction
  · exact mem_checked.mpr ⟨hget, item, hitem⟩

theorem Charged.keep (h : Charged s) (keep : Nat → Bool) :
    Charged { s with items := s.items.filterKeys keep } := by
  refine h.mono (JsMap.total_filterKeys_le _ _ _) fun id size hmem => ?_
  obtain ⟨hget, item, hitem⟩ := mem_checked.mp hmem
  rw [JsMap.get?_filterKeys] at hitem
  split at hitem
  · exact mem_checked.mpr ⟨hget, item, hitem⟩
  · contradiction

theorem fresh_nextId (h : Sound s) : s.nextId ∉ s.items.keys ∧ s.downloads.get? s.nextId = none := by
  constructor
  · intro hmem
    obtain ⟨old, hold⟩ := JsMap.mem_keys_iff.mp hmem
    exact absurd (h.id _ _ hold).2 (Nat.lt_irrefl _)
  · cases hstage : s.downloads.get? s.nextId with
    | none => rfl
    | some stage => exact absurd (h.download _ _ hstage) (Nat.lt_irrefl _)

theorem Charged.insert (h : Charged s) (hs : Sound s) {item : PrivateQueueItem}
    (hcontent : item.content = none) :
    Charged { s with items := s.items.set s.nextId item, nextId := s.nextId + 1 } := by
  have hfresh := fresh_nextId hs
  refine h.mono ?_ fun id size hmem => ?_
  · have htotal := JsMap.total_set_of_not_mem chargedSize item hfresh.1
    simp only [chargedBytes, htotal]
    simp [chargedSize, hcontent]
  · obtain ⟨hget, item', hitem⟩ := mem_checked.mp hmem
    simp only [JsMap.get?_set] at hget hitem
    split at hitem
    · rename_i hsame
      simp [hsame, hfresh.2] at hget
    · exact mem_checked.mpr ⟨hget, item', hitem⟩

theorem currentBytes_eq (excludeId : Option Nat) : s.currentBytes excludeId =
    s.items.total fun item => if some item.id ≠ excludeId then item.sizeBytes else 0 := by
  unfold currentBytes JsMap.total
  induction s.items.values with
  | nil => rfl
  | cons item items ih =>
    by_cases h : some item.id = excludeId
    · simpa [h] using ih
    · simpa [h] using ih

/-- The check counts at least what is charged, for an item that is not charged itself. -/
theorem chargedBytes_le_currentBytes (hs : Sound s)
    (hid : ∀ item, s.items.get? id = some item → item.content = none) :
    s.chargedBytes ≤ s.currentBytes (some id) := by
  rw [currentBytes_eq]
  refine JsMap.total_le_total fun item hitem => ?_
  obtain ⟨id', hget⟩ := JsMap.mem_values_iff.mp hitem
  by_cases hsame : item.id = id
  · obtain rfl : id' = id := (hs.id id' item hget).1.symm.trans hsame
    simp [chargedSize, hid item hget]
  · have hne : some item.id ≠ some id := by simpa using hsame
    simp only [chargedSize, hne, ne_eq, not_false_eq_true, if_true]
    split <;> omega

theorem Charged.stageDownload (h : Charged s) (hs : Sound s) (totalBytes : Int)
    (staging : Staging) : Charged (s.stageDownload totalBytes staging) := by
  unfold BrowserImportQueue.stageDownload
  simp only
  split
  · exact h.insert hs rfl
  · split
    · exact h.insert hs rfl
    · cases staging with
      | directoryFails => exact h.mono le_rfl fun id size hmem => mem_checked.mpr (mem_checked.mp hmem)
      | listenerFails => exact h.insert hs rfl
      | registered =>
        exact (h.insert hs rfl).setStage fun size hsize => by simp [checkedSize?] at hsize

theorem Charged.step (h : Charged s) (hs : Sound s) (hfits : Fits s event) :
    Charged (s.step event) := by
  cases event with
  | willDownload totalBytes staging => exact h.stageDownload hs totalBytes staging
  | done id state =>
    simp only [BrowserImportQueue.step]
    split
    · unfold finishDownload
      split
      · exact h.endDownload id
      · split
        · exact h.fail id _
        · exact h.setStage fun size hsize => by simp [checkedSize?] at hsize
    · exact h
  | stat id result =>
    simp only [BrowserImportQueue.step]
    split
    · rename_i hid
      unfold afterStat
      split
      · exact h.fail id _
      · rename_i info
        split
        · exact h.fail id _
        · split
          · exact h.fail id _
          · split
            · exact h.fail id _
            · rename_i hroom
              refine h.setStage fun size hsize item hitem => ?_
              obtain rfl : info.size = size := by simpa [checkedSize?] using hsize
              have hle := chargedBytes_le_currentBytes hs fun item hitem =>
                (hs.waiting id .stat item hid hitem).2
              omega
    · exact h
  | readFile id result =>
    simp only [BrowserImportQueue.step]
    split
    · rename_i size hid
      unfold afterRead
      split
      · exact h.fail id _
      · rename_i content
        split
        · exact h.fail id _
        · rename_i hparse
          have hvalid : (Json.parse content).isSome = true := by
            simpa [Option.isSome_iff_ne_none] using hparse
          cases hitem : s.items.get? id with
          | none => exact h.update rfl fun item hsome => by simp [hitem] at hsome
          | some item =>
            have hmem : (id, size) ∈ s.checked := mem_checked.mpr ⟨hid, item, hitem⟩
            -- The size that is charged is one that was checked.
            have hle : ((s.updateItem id fun item => { item with
                content := some content, sizeBytes := size, error := none }).setStage id
                  .cacheDownload).chargedBytes ≤ s.chargedBytes + size :=
              total_updateItem_le chargedSize fun item _ => by simp [chargedSize]
            refine ⟨hle.trans (h.checked _ hmem), ?_⟩
            rintro ⟨id', size'⟩ hp
            obtain ⟨hne, hp⟩ := mem_checked_of_update rfl hp
            have := hfits hvalid _ hmem rfl _ hp hne
            simp only at this ⊢
            omega
    · exact h
  | cacheDownload id result =>
    simp only [BrowserImportQueue.step]
    split
    · exact h.update rfl fun item _ => le_rfl
    · exact h
  | rm id =>
    simp only [BrowserImportQueue.step]
    split
    · exact h.endDownload id
    · exact h
  | removeMany ids => exact h.keep _
  | clear =>
    have hempty : JsMap.empty = s.items.filterKeys fun _ => false := by
      simp [JsMap.filterKeys, JsMap.empty]
    simp only [BrowserImportQueue.step, hempty]
    exact h.keep _

theorem readyBytes_le_chargedBytes (hs : Sound s) : s.readyBytes ≤ s.chargedBytes := by
  refine JsMap.total_le_total fun item hitem => ?_
  obtain ⟨id, hget⟩ := JsMap.mem_values_iff.mp hitem
  split
  · rename_i hready
    simp [chargedSize, hs.ready id item hget hready]
  · exact Nat.zero_le _

theorem refusesRightly_of_fits (hs : Sound s) (hfits : Fits s event) : RefusesRightly s event := by
  cases event with
  | willDownload totalBytes staging =>
    intro hsmall item hitem hfailed
    obtain ⟨hcount, hbytes⟩ := hfits hsmall
    have hrefused : maxQueueItems ≤ s.items.size ∨
        maxQueueBytes < s.currentBytes none + totalBytes.toNat := by
      by_contra hroom
      have hfresh : s.items.get? s.nextId = none :=
        JsMap.get?_eq_none_iff.mpr (fresh_nextId hs).1
      have hroom' : ¬(maxQueueItems ≤ s.items.size ∨ maxQueueBytes <
          { s with nextId := s.nextId + 1 }.currentBytes none + totalBytes.toNat) := hroom
      simp only [stageDownload, hroom', if_false, Nat.not_lt.mpr hsmall] at hitem
      cases staging with
      | directoryFails => simp [hfresh] at hitem
      | listenerFails =>
        simp only [JsMap.get?_set, if_true, Option.some.injEq] at hitem
        simp [← hitem] at hfailed
      | registered =>
        simp only [setStage, JsMap.get?_set, if_true, Option.some.injEq] at hitem
        simp [← hitem] at hfailed
    rcases hrefused with hfull | hfull
    · left
      have hlive : s.liveCount = s.items.size := by
        have hall : s.liveCount = s.items.total fun _ => 1 :=
          JsMap.total_congr fun item hitem => by simp [hcount hfull item hitem]
        simpa [JsMap.total, JsMap.values, JsMap.size, Function.comp_def] using hall
      omega
    · right
      have hlive : s.liveBytes = s.currentBytes none := by
        rw [currentBytes_eq]
        refine JsMap.total_congr fun item hitem => ?_
        have := hbytes hfull item hitem
        cases hitem' : isLive item <;> simp_all
      omega
  | _ => trivial

/-- As long as the checked downloads still fit when a size is charged, and failed items take no
room that a small download lacks, the queue keeps its bounds and refuses only what exceeds
them. -/
theorem withinBudget_of_fits (events : List Event) (h : Along step Fits empty events) :
    ∀ before, before <+: events →
      (run step empty before).readyBytes ≤ maxQueueBytes ∧
      (run step empty before).liveCount ≤ maxQueueItems ∧
      ∀ event, before ++ [event] <+: events → RefusesRightly (run step empty before) event := by
  have hempty : Charged empty := by
    refine ⟨Nat.zero_le _, fun p hp => ?_⟩
    simp [checked, empty, JsMap.empty] at hp
  have hinvariant : ∀ before, before <+: events →
      Sound (run step empty before) ∧ Charged (run step empty before) := by
    rintro before ⟨rest, rfl⟩
    exact invariant_of_along (fun s => Sound s ∧ Charged s)
      (fun s event hs (hfits : Fits s event) => ⟨hs.1.step event, hs.2.step hs.1 hfits⟩)
      ⟨sound_empty, hempty⟩ (along_append.mp h).1
  intro before hbefore
  obtain ⟨hsound, hcharged⟩ := hinvariant before hbefore
  refine ⟨(readyBytes_le_chargedBytes hsound).trans hcharged.charged, hsound.live, ?_⟩
  rintro event ⟨rest, rfl⟩
  rw [List.append_assoc, along_append] at h
  exact refusesRightly_of_fits hsound h.2.1

instance Fits.decidable : ∀ s event, Decidable (Fits s event)
  | s, .willDownload totalBytes _ => inferInstanceAs (Decidable (totalBytes.toNat ≤ maxItemBytes →
      (maxQueueItems ≤ s.items.size → ∀ item ∈ s.items.values, isLive item = true) ∧
      (maxQueueBytes < s.currentBytes none + totalBytes.toNat →
        ∀ item ∈ s.items.values, isLive item = false → item.sizeBytes = 0)))
  | s, .readFile id (.ok content) => inferInstanceAs (Decidable (
      (Json.parse content).isSome = true → ∀ p ∈ s.checked, p.1 = id → ∀ q ∈ s.checked, q.1 ≠ id →
        s.chargedBytes + p.2 + q.2 ≤ maxQueueBytes))
  | _, .readFile _ (.error _) => .isTrue trivial
  | _, .done .. => .isTrue trivial
  | _, .stat .. => .isTrue trivial
  | _, .cacheDownload .. => .isTrue trivial
  | _, .rm .. => .isTrue trivial
  | _, .removeMany .. => .isTrue trivial
  | _, .clear => .isTrue trivial

/-- Two downloads, one after the other, and an import. -/
theorem withinBudget_of_fits_twice :
    let events : List Event :=
      [.willDownload 10 .registered, .done 0 (js "completed"), .stat 0 (.ok ⟨true, 2⟩),
        .readFile 0 (.ok (js "\x7b\x7d")), .cacheDownload 0 (.ok ()), .rm 0,
        .willDownload (-1) .registered, .removeMany [0]]
    Along step Fits empty events ∧
      ∀ before, before <+: events →
        (run step empty before).readyBytes ≤ maxQueueBytes ∧
        (run step empty before).liveCount ≤ maxQueueItems ∧
        ∀ event, before ++ [event] <+: events → RefusesRightly (run step empty before) event := by
  intro events
  have h : Along step Fits empty events := by decide +kernel
  exact ⟨h, withinBudget_of_fits events h⟩

/-- After a file of 30 MiB, which is refused and stays with its size, one of 3 MiB is refused
although nothing is ready or downloading.  And of nine files of 4 MiB whose sizes are not
announced all are checked before one is charged, so that 36 MiB are ready; their texts, here `1`,
are only parsed. -/
theorem withinBudget_fails :
    ¬ RefusesRightly (run step empty [.willDownload 31457280 .registered])
      (.willDownload 3145728 .registered) ∧
    maxQueueBytes < (run step empty ((List.range 9).map (fun _ => .willDownload 0 .registered) ++
      (List.range 9).map (fun id => .done id (js "completed")) ++
      (List.range 9).map (fun id => .stat id (.ok ⟨true, maxItemBytes⟩)) ++
      (List.range 9).map (fun id => .readFile id (.ok (js "1"))) ++
      (List.range 9).map (fun id => .cacheDownload id (.ok ())))).readyBytes := by
  constructor
  · intro h
    have := h (by decide) ⟨1, 3145728, .failed, some (js "挂起队列总大小不能超过 32 MB。"), none⟩
      (by decide +kernel) rfl
    revert this
    decide +kernel
  · decide +kernel

end StonePlus.Browser.BrowserImportQueue
