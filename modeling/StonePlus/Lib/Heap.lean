import Mathlib.Data.List.Basic
import Mathlib.Order.Basic
import Mathlib.Order.Lattice

/-!
# StonePlus.Lib.Heap

Binary min-heaps in a list, ordered by a key.

The two sifts move a hole: the pairs off the hole are in order, and the hole's neighbours are
in the order that the direction needs (`HoleUp`, `HoleDown`).  A sift ends in an ordered list
with the same members, provided it has enough fuel.
-/

namespace StonePlus.Lib.Heap

variable {α β : Type} [LinearOrder β] (f : α → β)

/-- No entry is before its parent. -/
def Ordered (l : List α) : Prop :=
  ∀ j a b, 0 < j → l[j]? = some b → l[(j - 1) / 2]? = some a → f a ≤ f b

/-- Move the hole at `i` up past later parents, then fill it. -/
def siftUp (e : α) : Nat → List α → Nat → List α
  | 0, l, i => l.set i e
  | fuel + 1, l, i =>
    if i = 0 then l.set i e
    else
      match l[(i - 1) / 2]? with
      | none => l.set i e
      | some p => if f p ≤ f e then l.set i e else siftUp e fuel (l.set i p) ((i - 1) / 2)

/-- The earlier child of `i`, given the left one. -/
def earlierChild (l : List α) (i : Nat) (left : α) : Nat × α :=
  match l[i * 2 + 1 + 1]? with
  | none => (i * 2 + 1, left)
  | some right => if f right < f left then (i * 2 + 1 + 1, right) else (i * 2 + 1, left)

/-- Move the hole at `i` down past earlier children, then fill it. -/
def siftDown (e : α) : Nat → List α → Nat → List α
  | 0, l, i => l.set i e
  | fuel + 1, l, i =>
    match l[i * 2 + 1]? with
    | none => l.set i e
    | some left =>
      let child := earlierChild f l i left
      if f e ≤ f child.2 then l.set i e else siftDown e fuel (l.set i child.2) child.1

variable {f}

/-- The root is first. -/
theorem Ordered.root_le (h : Ordered f l) (ha : l[0]? = some a) (hx : x ∈ l) : f a ≤ f x := by
  obtain ⟨j, hj, rfl⟩ := List.getElem_of_mem hx
  induction j using Nat.strongRecOn with
  | _ j ih =>
      by_cases hzero : j = 0
      · subst hzero
        rw [List.getElem?_eq_getElem hj] at ha
        cases ha
        exact le_refl _
      · have hparent : (j - 1) / 2 < j := by omega
        exact (ih _ hparent (by omega) (List.getElem_mem _)).trans
          (h j _ _ (by omega) (List.getElem?_eq_getElem hj) (List.getElem?_eq_getElem _))

theorem getElem?_set_of_lt {l : List α} (h : i < l.length) (x : α) (j : Nat) :
    (l.set i x)[j]? = if j = i then some x else l[j]? := by
  rw [List.getElem?_set]
  by_cases hj : i = j
  · subst hj
    rw [if_pos rfl, if_pos rfl, if_pos h]
  · rw [if_neg hj, if_neg (Ne.symm hj)]

/-! ## Sifting up -/

/-- A hole that may move up: the entry for it is not after its children, nor is its parent. -/
structure HoleUp (f : α → β) (e : α) (l : List α) (i : Nat) : Prop where
  lt : i < l.length
  off : ∀ j a b, 0 < j → j ≠ i → (j - 1) / 2 ≠ i → l[j]? = some b → l[(j - 1) / 2]? = some a →
    f a ≤ f b
  below : ∀ j b, 0 < j → (j - 1) / 2 = i → l[j]? = some b → f e ≤ f b
  grand : ∀ j a b, 0 < i → 0 < j → (j - 1) / 2 = i → l[j]? = some b → l[(i - 1) / 2]? = some a →
    f a ≤ f b

theorem HoleUp.fill {e : α} (h : HoleUp f e l i)
    (hparent : ∀ a, 0 < i → l[(i - 1) / 2]? = some a → f a ≤ f e) : Ordered f (l.set i e) := by
  intro j a b hj hb ha
  rw [getElem?_set_of_lt h.lt] at hb ha
  by_cases hji : j = i
  · subst hji
    rw [if_pos rfl] at hb
    cases hb
    rw [if_neg (by omega)] at ha
    exact hparent a hj ha
  · rw [if_neg hji] at hb
    by_cases hpi : (j - 1) / 2 = i
    · rw [if_pos hpi] at ha
      cases ha
      exact h.below j b hj hpi hb
    · rw [if_neg hpi] at ha
      exact h.off j a b hj hji hpi hb ha

/-- A later parent moves into the hole. -/
theorem HoleUp.move (h : HoleUp f e l i) (hi : 0 < i) (hp : l[(i - 1) / 2]? = some p)
    (hlater : f e < f p) : HoleUp f e (l.set i p) ((i - 1) / 2) where
  lt := by
    have := h.lt
    rw [List.length_set]
    omega
  off := by
    intro j a b hj hne hnp hb ha
    have hji : j ≠ i := by rintro rfl; exact hnp rfl
    rw [getElem?_set_of_lt h.lt] at hb ha
    rw [if_neg hji] at hb
    by_cases hpi : (j - 1) / 2 = i
    · rw [if_pos hpi] at ha
      cases ha
      exact h.grand j p b hi hj hpi hb hp
    · rw [if_neg hpi] at ha
      exact h.off j a b hj hji hpi hb ha
  below := by
    intro j b hj hchild hb
    rw [getElem?_set_of_lt h.lt] at hb
    by_cases hji : j = i
    · rw [if_pos hji] at hb
      cases hb
      exact hlater.le
    · rw [if_neg hji] at hb
      rw [← hchild] at hp
      exact hlater.le.trans (h.off j p b hj hji (by omega) hb hp)
  grand := by
    intro j a b hpos hj hchild hb ha
    rw [getElem?_set_of_lt h.lt] at hb ha
    rw [if_neg (by omega)] at ha
    have hgrand := h.off ((i - 1) / 2) a p hpos (by omega) (by omega) hp ha
    by_cases hji : j = i
    · rw [if_pos hji] at hb
      cases hb
      exact hgrand
    · rw [if_neg hji] at hb
      rw [← hchild] at hp
      exact hgrand.trans (h.off j p b hj hji (by omega) hb hp)

theorem ordered_siftUp (h : HoleUp f e l i) (hfuel : i ≤ fuel) :
    Ordered f (siftUp f e fuel l i) := by
  induction fuel generalizing l i with
  | zero => exact h.fill fun a hi => absurd hi (by omega)
  | succ fuel ih =>
      unfold siftUp
      split
      · next hi => exact h.fill fun a hpos => absurd hpos (by omega)
      · next hi =>
        split
        · next hnone => exact h.fill fun a _ ha => by rw [hnone] at ha; cases ha
        · next p hp =>
          split
          · next hle => exact h.fill fun a _ ha => by rw [hp] at ha; cases ha; exact hle
          · next hlater => exact ih (h.move (by omega) hp (not_le.mp hlater)) (by omega)

/-- An entry at the end of an ordered list, to be moved up. -/
theorem HoleUp.of_append (h : Ordered f l) (e : α) : HoleUp f e (l ++ [e]) l.length where
  lt := by simp
  off := by
    intro j a b hj hne hnp hb ha
    have hlt : j < l.length := by
      have := (List.getElem?_eq_some_iff.mp hb).1
      simp only [List.length_append, List.length_singleton] at this
      omega
    rw [List.getElem?_append_left hlt] at hb
    rw [List.getElem?_append_left (by omega)] at ha
    exact h j a b hj hb ha
  below := by
    intro j b hj hchild hb
    have := (List.getElem?_eq_some_iff.mp hb).1
    simp only [List.length_append, List.length_singleton] at this
    omega
  grand := by
    intro j a b hi hj hchild hb
    have := (List.getElem?_eq_some_iff.mp hb).1
    simp only [List.length_append, List.length_singleton] at this
    omega

/-! ## Sifting down -/

/-- A hole that may move down: its parent is not after the entry for it, nor after its
children. -/
structure HoleDown (f : α → β) (e : α) (l : List α) (i : Nat) : Prop where
  lt : i < l.length
  off : ∀ j a b, 0 < j → j ≠ i → (j - 1) / 2 ≠ i → l[j]? = some b → l[(j - 1) / 2]? = some a →
    f a ≤ f b
  above : ∀ a, 0 < i → l[(i - 1) / 2]? = some a → f a ≤ f e
  grand : ∀ j a b, 0 < i → 0 < j → (j - 1) / 2 = i → l[j]? = some b → l[(i - 1) / 2]? = some a →
    f a ≤ f b

theorem HoleDown.fill (h : HoleDown f e l i)
    (hbelow : ∀ j b, 0 < j → (j - 1) / 2 = i → l[j]? = some b → f e ≤ f b) :
    Ordered f (l.set i e) :=
  HoleUp.fill ⟨h.lt, h.off, hbelow, h.grand⟩ h.above

/-- The earlier child is one, and no child is before it. -/
theorem earlierChild_spec (h : l[i * 2 + 1]? = some left) :
    i < (earlierChild f l i left).1 ∧ ((earlierChild f l i left).1 - 1) / 2 = i ∧
      l[(earlierChild f l i left).1]? = some (earlierChild f l i left).2 ∧
      ∀ j b, 0 < j → (j - 1) / 2 = i → l[j]? = some b → f (earlierChild f l i left).2 ≤ f b := by
  have hchildren {j : Nat} (hj : 0 < j) (hparent : (j - 1) / 2 = i) :
      j = i * 2 + 1 ∨ j = i * 2 + 1 + 1 := by omega
  unfold earlierChild
  split
  · next hright =>
    refine ⟨by omega, by omega, h, fun j b hj hparent hb => ?_⟩
    rcases hchildren hj hparent with rfl | rfl
    · rw [h] at hb
      cases hb
      exact le_refl _
    · rw [hright] at hb
      cases hb
  · next right hright =>
    split
    · next hlt =>
      refine ⟨by omega, by omega, hright, fun j b hj hparent hb => ?_⟩
      rcases hchildren hj hparent with rfl | rfl
      · rw [h] at hb
        cases hb
        exact hlt.le
      · rw [hright] at hb
        cases hb
        exact le_refl _
    · next hge =>
      refine ⟨by omega, by omega, h, fun j b hj hparent hb => ?_⟩
      rcases hchildren hj hparent with rfl | rfl
      · rw [h] at hb
        cases hb
        exact le_refl _
      · rw [hright] at hb
        cases hb
        exact not_lt.mp hge

/-- The earlier child moves into the hole. -/
theorem HoleDown.move (h : HoleDown f e l i) (hik : i < k) (hparent : (k - 1) / 2 = i)
    (hc : l[k]? = some c)
    (hearliest : ∀ j b, 0 < j → (j - 1) / 2 = i → l[j]? = some b → f c ≤ f b) (hlater : f c < f e) :
    HoleDown f e (l.set i c) k where
  lt := by
    rw [List.length_set]
    exact (List.getElem?_eq_some_iff.mp hc).1
  off := by
    intro j a b hj hne hnp hb ha
    rw [getElem?_set_of_lt h.lt] at hb ha
    by_cases hji : j = i
    · rw [if_pos hji] at hb
      cases hb
      rw [if_neg (by omega)] at ha
      subst hji
      exact h.grand k a c hj (by omega) hparent hc ha
    · rw [if_neg hji] at hb
      by_cases hpi : (j - 1) / 2 = i
      · rw [if_pos hpi] at ha
        cases ha
        exact hearliest j b hj hpi hb
      · rw [if_neg hpi] at ha
        exact h.off j a b hj hji hpi hb ha
  above := by
    intro a hk ha
    rw [getElem?_set_of_lt h.lt, if_pos hparent] at ha
    cases ha
    exact hlater.le
  grand := by
    intro j a b hk hj hchild hb ha
    rw [getElem?_set_of_lt h.lt] at hb ha
    rw [if_pos hparent] at ha
    cases ha
    rw [if_neg (by omega)] at hb
    rw [← hchild] at hc
    exact h.off j c b hj (by omega) (by omega) hb hc

theorem ordered_siftDown (h : HoleDown f e l i) (hfuel : l.length ≤ fuel + i) :
    Ordered f (siftDown f e fuel l i) := by
  induction fuel generalizing l i with
  | zero =>
      have := h.lt
      omega
  | succ fuel ih =>
      unfold siftDown
      split
      · next hleaf =>
        refine h.fill fun j b hj hparent hb => ?_
        have hlength := List.getElem?_eq_none_iff.mp hleaf
        have := (List.getElem?_eq_some_iff.mp hb).1
        omega
      · next left hleft =>
        obtain ⟨hlt, hparent, hchild, hearliest⟩ := earlierChild_spec (f := f) hleft
        dsimp only
        split
        · next hle => exact h.fill fun j b hj hp hb => hle.trans (hearliest j b hj hp hb)
        · next hlater =>
          refine ih (h.move hlt hparent hchild hearliest (not_le.mp hlater)) ?_
          rw [List.length_set]
          omega

/-- Filling the last place's entry into the root's hole. -/
theorem HoleDown.of_dropLast (h : Ordered f l) (e : α) (hne : l.dropLast ≠ []) :
    HoleDown f e l.dropLast 0 where
  lt := List.length_pos_iff.mpr hne
  off := by
    intro j a b hj hne hnp hb ha
    rw [List.getElem?_dropLast] at hb ha
    split at hb
    · split at ha
      · exact h j a b hj hb ha
      · cases ha
    · cases hb
  above := fun a hi => absurd hi (Nat.lt_irrefl 0)
  grand := fun j a b hi => absurd hi (Nat.lt_irrefl 0)

/-! ## Members -/

/-- Moving an entry into the hole keeps the members. -/
theorem mem_move {l : List α} (hi : i < l.length) (hik : k ≠ i) (hp : l[k]? = some p)
    (hx : x ∈ l.set i e) : x ∈ (l.set i p).set k e := by
  have hk : k < (l.set i p).length := by
    rw [List.length_set]
    exact (List.getElem?_eq_some_iff.mp hp).1
  obtain ⟨j, hj⟩ := List.mem_iff_getElem?.mp hx
  rw [getElem?_set_of_lt hi] at hj
  split at hj
  · cases hj
    exact List.mem_iff_getElem?.mpr ⟨k, by rw [getElem?_set_of_lt hk, if_pos rfl]⟩
  · next hji =>
    by_cases hjk : j = k
    · subst hjk
      rw [hp] at hj
      cases hj
      exact List.mem_iff_getElem?.mpr
        ⟨i, by rw [getElem?_set_of_lt hk, if_neg (Ne.symm hik), getElem?_set_of_lt hi, if_pos rfl]⟩
    · exact List.mem_iff_getElem?.mpr
        ⟨j, by rw [getElem?_set_of_lt hk, if_neg hjk, getElem?_set_of_lt hi, if_neg hji, hj]⟩

theorem mem_siftUp (hi : i < l.length) (hx : x ∈ l.set i e) : x ∈ siftUp f e fuel l i := by
  induction fuel generalizing l i with
  | zero => exact hx
  | succ fuel ih =>
      unfold siftUp
      split
      · exact hx
      · next hpos =>
        split
        · exact hx
        · next p hp =>
          split
          · exact hx
          · refine ih ?_ (mem_move hi (by omega) hp hx)
            rw [List.length_set]
            omega

theorem mem_siftDown (hi : i < l.length) (hx : x ∈ l.set i e) : x ∈ siftDown f e fuel l i := by
  induction fuel generalizing l i with
  | zero => exact hx
  | succ fuel ih =>
      unfold siftDown
      split
      · exact hx
      · next left hleft =>
        obtain ⟨hlt, -, hchild, -⟩ := earlierChild_spec (f := f) hleft
        dsimp only
        split
        · exact hx
        · refine ih ?_ (mem_move hi (by omega) hchild hx)
          rw [List.length_set]
          exact (List.getElem?_eq_some_iff.mp hchild).1

theorem length_siftDown (e : α) (fuel : Nat) (l : List α) (i : Nat) :
    (siftDown f e fuel l i).length = l.length := by
  induction fuel generalizing l i with
  | zero => exact List.length_set
  | succ fuel ih =>
      unfold siftDown
      split
      · exact List.length_set
      · dsimp only
        split
        · exact List.length_set
        · rw [ih, List.length_set]

end StonePlus.Lib.Heap
