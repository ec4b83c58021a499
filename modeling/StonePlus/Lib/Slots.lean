import Mathlib.Data.List.Perm.Basic
import Mathlib.Data.List.Range
import Mathlib.Data.List.Nodup
import Mathlib.Data.Nat.Find

/-!
# StonePlus.Lib.Slots

A log in which several slots share one space of indices.

A slot gets the next free index, may be announced with an item under its
index, and its text grows in pieces.  `Agrees` ties the slots to what a reader
of the log sees: the items announced under each index and the text under it.
-/

namespace StonePlus.Lib

variable {σ ι α : Type}

/-- An entry of the log. -/
inductive SlotEntry (ι α : Type)
  | announce (index : Nat) (item : ι)
  | extend (index : Nat) (text : List α)

namespace SlotEntry

/-- The index and the item of an announcement. -/
def announced? : SlotEntry ι α → Option (Nat × ι)
  | .announce index item => some (index, item)
  | .extend .. => none

/-- What an entry adds to the text under an index. -/
def textAt (i : Nat) : SlotEntry ι α → List α
  | .announce .. => []
  | .extend index text => if index = i then text else []

end SlotEntry

/-- The announcements of a log. -/
def announcements (log : List (SlotEntry ι α)) : List (Nat × ι) := log.filterMap SlotEntry.announced?

/-- The text under an index. -/
def textOf (i : Nat) (log : List (SlotEntry ι α)) : List α := log.flatMap (SlotEntry.textAt i)

@[simp] theorem announcements_append (log more : List (SlotEntry ι α)) :
    announcements (log ++ more) = announcements log ++ announcements more := by
  simp [announcements]

@[simp] theorem textOf_append (i : Nat) (log more : List (SlotEntry ι α)) :
    textOf i (log ++ more) = textOf i log ++ textOf i more := by
  simp [textOf]

@[simp] theorem announcements_announce (index : Nat) (item : ι) :
    announcements [(.announce index item : SlotEntry ι α)] = [(index, item)] := rfl

@[simp] theorem announcements_extend (index : Nat) (text : List α) :
    announcements [(.extend index text : SlotEntry ι α)] = [] := rfl

@[simp] theorem textOf_announce (i index : Nat) (item : ι) :
    textOf i [(.announce index item : SlotEntry ι α)] = [] := rfl

@[simp] theorem textOf_extend (i index : Nat) (text : List α) :
    textOf i [(.extend index text : SlotEntry ι α)] = if index = i then text else [] := by
  simp [textOf, SlotEntry.textAt]

/-! ## Slots -/

/-- The slots of a writer. -/
structure Slots (σ ι α : Type) where
  next : Nat
  index : σ → Option Nat
  item : σ → Option ι
  text : σ → List α

/-- A log with the slots that wrote it. -/
structure Agrees (v : Slots σ ι α) (log : List (SlotEntry ι α)) : Prop where
  below : ∀ {a i}, v.index a = some i → i < v.next
  covered : ∀ {i}, i < v.next → ∃ a, v.index a = some i
  unique : ∀ {a b i}, v.index a = some i → v.index b = some i → a = b
  indexed : ∀ {a item}, v.item a = some item → ∃ i, v.index a = some i
  announced : ∀ {i item}, (i, item) ∈ announcements log ↔
    ∃ a, v.index a = some i ∧ v.item a = some item
  nodup : ((announcements log).map Prod.fst).Nodup
  text_eq : ∀ {a i}, v.index a = some i → textOf i log = v.text a
  text_beyond : ∀ {i}, v.next ≤ i → textOf i log = []
  silent : ∀ {a}, v.index a = none → v.text a = []

theorem agrees_empty : Agrees (⟨0, fun _ => none, fun _ => none, fun _ => []⟩ : Slots σ ι α) [] := by
  constructor <;> simp [announcements, textOf]

variable {v : Slots σ ι α} {log : List (SlotEntry ι α)}

/-- The slots are determined by what they hold. -/
theorem Agrees.congr (h : Agrees v log) (hnext : w.next = v.next)
    (hindex : ∀ a, w.index a = v.index a) (hitem : ∀ a, w.item a = v.item a)
    (htext : ∀ a, w.text a = v.text a) : Agrees w log := by
  have hw : w = v := by
    obtain ⟨n, f, g, t⟩ := w
    obtain rfl : f = v.index := funext hindex
    obtain rfl : g = v.item := funext hitem
    obtain rfl : t = v.text := funext htext
    cases hnext
    rfl
  rwa [hw]

/-- A slot gets the next index. -/
theorem Agrees.reserve {w : Slots σ ι α} {a : σ} (h : Agrees v log) (hfree : v.index a = none)
    (hnext : w.next = v.next + 1) (hself : w.index a = some v.next)
    (hindex : ∀ b, b ≠ a → w.index b = v.index b) (hitem : ∀ b, w.item b = v.item b)
    (htext : ∀ b, w.text b = v.text b) : Agrees w log := by
  have hsame {b : σ} {i : Nat} (hb : w.index b = some i) (hi : i ≠ v.next) :
      v.index b = some i := by
    by_cases hba : b = a
    · subst hba
      rw [hself] at hb
      exact absurd (Option.some.inj hb).symm hi
    · rwa [hindex b hba] at hb
  have hold {b : σ} {i : Nat} (hb : v.index b = some i) : w.index b = some i := by
    by_cases hba : b = a
    · subst hba
      rw [hfree] at hb
      cases hb
    · rwa [hindex b hba]
  have hnew {b : σ} (hb : w.index b = some v.next) : b = a := by
    by_contra hba
    rw [hindex b hba] at hb
    exact Nat.lt_irrefl _ (h.below hb)
  constructor
  · intro b i hb
    by_cases hi : i = v.next
    · omega
    · have := h.below (hsame hb hi)
      omega
  · intro i hi
    by_cases hlast : i = v.next
    · exact ⟨a, hlast ▸ hself⟩
    · obtain ⟨b, hb⟩ := h.covered (i := i) (by omega)
      exact ⟨b, hold hb⟩
  · intro b c i hb hc
    by_cases hi : i = v.next
    · subst hi
      rw [hnew hb, hnew hc]
    · exact h.unique (hsame hb hi) (hsame hc hi)
  · intro b item hb
    rw [hitem] at hb
    obtain ⟨i, hi⟩ := h.indexed hb
    exact ⟨i, hold hi⟩
  · intro i item
    rw [h.announced]
    constructor
    · rintro ⟨b, hb, hbitem⟩
      exact ⟨b, hold hb, (hitem b).trans hbitem⟩
    · rintro ⟨b, hb, hbitem⟩
      rw [hitem] at hbitem
      obtain ⟨j, hj⟩ := h.indexed hbitem
      have hji : j = i := Option.some.inj ((hold hj).symm.trans hb)
      exact ⟨b, hji ▸ hj, hbitem⟩
  · exact h.nodup
  · intro b i hb
    rw [htext]
    by_cases hi : i = v.next
    · subst hi
      rw [hnew hb, h.silent hfree, h.text_beyond (Nat.le_refl _)]
    · exact h.text_eq (hsame hb hi)
  · intro i hi
    exact h.text_beyond (by omega)
  · intro b hb
    rw [htext]
    by_cases hba : b = a
    · subst hba
      exact h.silent hfree
    · rw [hindex b hba] at hb
      exact h.silent hb

/-- A slot is announced under its index. -/
theorem Agrees.announce (h : Agrees v log) (hi : v.index a = some i) (hquiet : v.item a = none)
    (hnext : w.next = v.next) (hindex : ∀ b, w.index b = v.index b) (hself : w.item a = some item)
    (hitem : ∀ b, b ≠ a → w.item b = v.item b) (htext : ∀ b, w.text b = v.text b) :
    Agrees w (log ++ [.announce i item]) := by
  have hfresh : ∀ found, (i, found) ∉ announcements log := by
    intro found hmem
    obtain ⟨b, hb, hbitem⟩ := h.announced.mp hmem
    rw [h.unique hb hi, hquiet] at hbitem
    cases hbitem
  constructor
  · intro b j hb
    rw [hindex] at hb
    exact hnext ▸ h.below hb
  · intro j hj
    obtain ⟨b, hb⟩ := h.covered (hnext ▸ hj)
    exact ⟨b, (hindex b).trans hb⟩
  · intro b c j hb hc
    rw [hindex] at hb hc
    exact h.unique hb hc
  · intro b found hb
    by_cases hba : b = a
    · subst hba
      exact ⟨i, (hindex b).trans hi⟩
    · rw [hitem b hba] at hb
      obtain ⟨j, hj⟩ := h.indexed hb
      exact ⟨j, (hindex b).trans hj⟩
  · intro j found
    rw [announcements_append, announcements_announce, List.mem_append, h.announced,
      List.mem_singleton]
    constructor
    · rintro (⟨b, hb, hbitem⟩ | hself')
      · have hba : b ≠ a := by
          rintro rfl
          rw [hquiet] at hbitem
          cases hbitem
        exact ⟨b, (hindex b).trans hb, (hitem b hba).trans hbitem⟩
      · cases hself'
        exact ⟨a, (hindex a).trans hi, hself⟩
    · rintro ⟨b, hb, hbitem⟩
      rw [hindex] at hb
      by_cases hba : b = a
      · subst hba
        rw [hself] at hbitem
        rw [hi] at hb
        cases hb
        cases hbitem
        exact .inr rfl
      · rw [hitem b hba] at hbitem
        exact .inl ⟨b, hb, hbitem⟩
  · rw [announcements_append, List.map_append, announcements_announce, List.map_singleton,
      List.nodup_append]
    refine ⟨h.nodup, List.nodup_singleton _, ?_⟩
    rintro j hj k hk rfl
    obtain ⟨⟨j', found⟩, hmem, rfl⟩ := List.mem_map.mp hj
    rw [List.mem_singleton] at hk
    dsimp only at hk
    subst hk
    exact hfresh found hmem
  · intro b j hb
    rw [hindex] at hb
    rw [textOf_append, textOf_announce, List.append_nil, htext]
    exact h.text_eq hb
  · intro j hj
    rw [textOf_append, textOf_announce, List.append_nil]
    exact h.text_beyond (hnext ▸ hj)
  · intro b hb
    rw [hindex] at hb
    rw [htext]
    exact h.silent hb

/-- The text of a slot grows under its index. -/
theorem Agrees.extend (h : Agrees v log) (hi : v.index a = some i) (hnext : w.next = v.next)
    (hindex : ∀ b, w.index b = v.index b) (hitem : ∀ b, w.item b = v.item b)
    (hself : w.text a = v.text a ++ more) (htext : ∀ b, b ≠ a → w.text b = v.text b) :
    Agrees w (log ++ [.extend i more]) := by
  constructor
  · intro b j hb
    rw [hindex] at hb
    exact hnext ▸ h.below hb
  · intro j hj
    obtain ⟨b, hb⟩ := h.covered (hnext ▸ hj)
    exact ⟨b, (hindex b).trans hb⟩
  · intro b c j hb hc
    rw [hindex] at hb hc
    exact h.unique hb hc
  · intro b found hb
    rw [hitem] at hb
    obtain ⟨j, hj⟩ := h.indexed hb
    exact ⟨j, (hindex b).trans hj⟩
  · intro j found
    simp only [announcements_append, announcements_extend, List.append_nil, h.announced, hindex,
      hitem]
  · simpa using h.nodup
  · intro b j hb
    rw [hindex] at hb
    rw [textOf_append, textOf_extend, h.text_eq hb]
    by_cases hba : b = a
    · subst hba
      rw [hi] at hb
      rw [if_pos (Option.some.inj hb), hself]
    · have hij : i ≠ j := by
        rintro rfl
        exact hba (h.unique hb hi)
      rw [if_neg hij, List.append_nil, htext b hba]
  · intro j hj
    have hij : i ≠ j := by
      have := h.below hi
      omega
    rw [textOf_append, textOf_extend, if_neg hij, List.append_nil]
    exact h.text_beyond (hnext ▸ hj)
  · intro b hb
    rw [hindex] at hb
    have hba : b ≠ a := by
      rintro rfl
      rw [hi] at hb
      cases hb
    rw [htext b hba]
    exact h.silent hb

/-- If no announced index is above one that is not announced, the announced
indices are those below their number. -/
theorem Agrees.perm_range (h : Agrees v log)
    (hearlier : ∀ {a b i j}, v.index a = some i → v.item a = none → v.index b = some j →
      v.item b ≠ none → j < i) :
    ((announcements log).map Prod.fst).Perm (List.range (announcements log).length) := by
  have hmem {i : Nat} : i ∈ (announcements log).map Prod.fst ↔
      ∃ a, v.index a = some i ∧ v.item a ≠ none := by
    rw [List.mem_map]
    constructor
    · rintro ⟨⟨j, item⟩, hmem, rfl⟩
      obtain ⟨a, ha, hitem⟩ := h.announced.mp hmem
      exact ⟨a, ha, by rw [hitem]; exact Option.some_ne_none item⟩
    · rintro ⟨a, ha, hitem⟩
      obtain ⟨item, hitem⟩ := Option.ne_none_iff_exists'.mp hitem
      exact ⟨(i, item), h.announced.mpr ⟨a, ha, hitem⟩, rfl⟩
  have hbound : ∃ n, ∀ i, i ∈ (announcements log).map Prod.fst ↔ i < n := by
    by_cases hall : ∀ i < v.next, i ∈ (announcements log).map Prod.fst
    · refine ⟨v.next, fun i => ⟨fun hi => ?_, hall i⟩⟩
      obtain ⟨a, ha, -⟩ := hmem.mp hi
      exact h.below ha
    · push Not at hall
      classical
      refine ⟨Nat.find hall, fun i => ⟨fun hi => ?_, fun hi => ?_⟩⟩
      · obtain ⟨hlt, hnot⟩ := Nat.find_spec hall
        obtain ⟨a, ha⟩ := h.covered hlt
        obtain ⟨b, hb, hbitem⟩ := hmem.mp hi
        have hquiet : v.item a = none := by
          by_contra hitem
          exact hnot (hmem.mpr ⟨a, ha, hitem⟩)
        exact hearlier ha hquiet hb hbitem
      · by_contra hnot
        obtain ⟨hlt, -⟩ := Nat.find_spec hall
        exact Nat.find_min hall hi ⟨by omega, hnot⟩
  obtain ⟨n, hn⟩ := hbound
  have hperm : ((announcements log).map Prod.fst).Perm (List.range n) := by
    rw [List.perm_ext_iff_of_nodup h.nodup List.nodup_range]
    exact fun i => (hn i).trans List.mem_range.symm
  have hlength : (announcements log).length = n := by
    simpa using hperm.length_eq
  rwa [hlength]

/-- If every reserved index is announced, there are as many announcements as
indices. -/
theorem Agrees.length_announcements (h : Agrees v log)
    (hall : ∀ {a i}, v.index a = some i → v.item a ≠ none) :
    (announcements log).length = v.next := by
  have hperm := h.perm_range fun ha hquiet _ _ => absurd hquiet (hall ha)
  have hiff (i : Nat) : i < (announcements log).length ↔ i < v.next := by
    rw [← List.mem_range, ← hperm.mem_iff, List.mem_map]
    constructor
    · rintro ⟨⟨j, item⟩, hmem, rfl⟩
      obtain ⟨a, ha, -⟩ := h.announced.mp hmem
      exact h.below ha
    · intro hi
      obtain ⟨a, ha⟩ := h.covered hi
      obtain ⟨item, hitem⟩ := Option.ne_none_iff_exists'.mp (hall ha)
      exact ⟨(i, item), h.announced.mpr ⟨a, ha, hitem⟩, rfl⟩
  have hle := (hiff v.next).not.mpr (Nat.lt_irrefl _)
  have hge := (hiff (announcements log).length).not.mp (Nat.lt_irrefl _)
  omega

end StonePlus.Lib
