import StonePlus.Js.Map
import Mathlib.Algebra.GroupWithZero.Nat
import Mathlib.Algebra.Order.BigOperators.Group.List
import Mathlib.Algebra.Order.Group.Nat
import Mathlib.Logic.Function.Basic

/-!
# StonePlus.Js.MapIndex

Totals over the values of a map, and what writing and deleting entries does to them.
-/

namespace StonePlus.JsMap

universe u v

variable {κ : Type u} {ν : Type v}

/-- The sum of a weight over the values. -/
def total (w : ν → Nat) (m : JsMap κ ν) : Nat := (m.values.map w).sum

@[simp] theorem total_empty (w : ν → Nat) : (empty : JsMap κ ν).total w = 0 := rfl

variable {m : JsMap κ ν}

theorem total_le_total (h : ∀ v ∈ m.values, w v ≤ w' v) : m.total w ≤ m.total w' :=
  List.sum_le_sum h

theorem total_congr (h : ∀ v ∈ m.values, w v = w' v) : m.total w = m.total w' := by
  rw [total, List.map_congr_left h, total]

theorem total_one_le_size (m : JsMap κ ν) (h : ∀ v, w v ≤ 1) : m.total w ≤ m.size := by
  have hle : (m.values.map w).sum ≤ (m.values.map w).length * 1 :=
    List.sum_le_card_nsmul _ _ fun n hn => by
      obtain ⟨v, -, rfl⟩ := List.mem_map.mp hn
      exact h v
  simpa [total, size, values] using hle

theorem total_filterKeys_le (w : ν → Nat) (m : JsMap κ ν) (keep : κ → Bool) :
    (m.filterKeys keep).total w ≤ m.total w := by
  refine List.Sublist.sum_le_sum ?_ fun _ _ => Nat.zero_le _
  exact (List.filter_sublist.map Prod.snd).map w

variable [DecidableEq κ]

theorem sum_setEntries (w : ν → Nat) (v : ν) {es : List (κ × ν)} (h : lookup k es = some old) :
    ((setEntries k v es).map fun e => w e.2).sum + w old = (es.map fun e => w e.2).sum + w v := by
  induction es with
  | nil => simp [lookup] at h
  | cons e es ih =>
    by_cases hk : e.1 = k
    · simp only [lookup, hk, if_true, Option.some.injEq] at h
      simp [setEntries, hk, h]
      omega
    · simp only [lookup, hk, if_false] at h
      have := ih h
      simp [setEntries, hk]
      omega

theorem total_set_of_get? (w : ν → Nat) {old : ν} (v : ν) (h : m.get? k = some old) :
    (m.set k v).total w + w old = m.total w + w v := by
  have hset : (m.set k v).entries = setEntries k v m.entries := rfl
  simpa [total, values, List.map_map, Function.comp_def, hset] using sum_setEntries w v h

theorem total_set_of_not_mem (w : ν → Nat) (v : ν) (h : k ∉ m.keys) :
    (m.set k v).total w = m.total w + w v := by
  have hset : (m.set k v).entries = m.entries ++ [(k, v)] := setEntries_of_not_mem h
  simp [total, values, hset]

end StonePlus.JsMap

/-!
## Indexes

Maps of maps used as an index: `putIn` adds a key under a group, `dropIn` deletes it and
drops a group that is left empty.

A group is read with `group`, which is empty where there is none; `NoEmptyGroup` says that
an empty group has no entry.  `Indexes` compares an index with the function it inverts.
-/

namespace StonePlus.JsMap

universe u v w

variable {γ : Type u} {κ : Type v} {ν : Type w} [DecidableEq γ] [DecidableEq κ]

/-! ## Sizes -/

theorem size_set_of_not_mem {m : JsMap κ ν} (h : k ∉ m.keys) (v : ν) :
    (m.set k v).size = m.size + 1 := by
  show (setEntries k v m.entries).length = m.entries.length + 1
  rw [setEntries_of_not_mem h, List.length_append]
  rfl

omit [DecidableEq κ] in
/-- A map with fewer keys is no larger. -/
theorem size_le_of_subset {μ : Type*} {m : JsMap κ ν} {n : JsMap κ μ} (h : m.keys ⊆ n.keys) :
    m.size ≤ n.size := by
  rw [← length_keys, ← length_keys]
  exact List.Nodup.length_le_of_subset m.nodup_keys h

omit [DecidableEq κ] in
/-- A map that lacks a key of another is smaller. -/
theorem size_lt_of_subset {μ : Type*} {m : JsMap κ ν} {n : JsMap κ μ} (h : m.keys ⊆ n.keys)
    (hn : k ∈ n.keys) (hm : k ∉ m.keys) : m.size < n.size := by
  rw [← length_keys, ← length_keys]
  exact List.Nodup.length_le_of_subset (List.nodup_cons.mpr ⟨hm, m.nodup_keys⟩)
    (List.cons_subset.mpr ⟨hn, h⟩)

theorem size_set_ne_zero (m : JsMap κ ν) (k : κ) (v : ν) : (m.set k v).size ≠ 0 := by
  rw [← length_keys]
  exact Nat.ne_of_gt (List.length_pos_of_mem (mem_keys_set.mpr (.inl rfl)))

omit [DecidableEq κ] in
theorem eq_empty_of_size {m : JsMap κ ν} (h : m.size = 0) : m = ∅ :=
  ext (List.length_eq_zero_iff.mp h)

/-! ## Groups -/

/-- The group of a key, empty if it is absent. -/
def group (m : JsMap γ (JsMap κ ν)) (g : γ) : JsMap κ ν := m.getD g ∅

/-- Add a key to a group. -/
def putIn (m : JsMap γ (JsMap κ ν)) (g : γ) (k : κ) (v : ν) : JsMap γ (JsMap κ ν) :=
  m.set g ((m.getD g ∅).set k v)

/-- Delete a key from a group, and the group if that leaves it empty. -/
def dropIn (m : JsMap γ (JsMap κ ν)) (g : γ) (k : κ) : JsMap γ (JsMap κ ν) :=
  match m.get? g with
  | none => m
  | some keys =>
    if (keys.delete k).size = 0 then m.delete g else m.set g (keys.delete k)

/-- No group is there for nothing. -/
def NoEmptyGroup (m : JsMap γ (JsMap κ ν)) : Prop := ∀ g keys, m.get? g = some keys → keys.size ≠ 0

theorem group_putIn (m : JsMap γ (JsMap κ ν)) (g g' : γ) (k : κ) (v : ν) :
    (m.putIn g k v).group g' = if g' = g then (m.group g).set k v else m.group g' := by
  rw [group, putIn, getD_set]
  rfl

theorem group_dropIn (m : JsMap γ (JsMap κ ν)) (g g' : γ) (k : κ) :
    (m.dropIn g k).group g' = if g' = g then (m.group g).delete k else m.group g' := by
  unfold dropIn group
  cases hg : m.get? g with
  | none =>
      have hempty : m.getD g ∅ = ∅ := by rw [getD, hg]; rfl
      dsimp only
      split
      · next heq =>
        rw [heq, hempty]
        rfl
      · rfl
  | some keys =>
      have hkeys : m.getD g ∅ = keys := by rw [getD, hg]; rfl
      rw [hkeys]
      dsimp only
      split
      · next hsize => rw [getD_delete, eq_empty_of_size hsize]
      · rw [getD_set]

theorem NoEmptyGroup.putIn (h : NoEmptyGroup m) (g : γ) (k : κ) (v : ν) :
    NoEmptyGroup (m.putIn g k v) := by
  intro g' keys hkeys
  rw [JsMap.putIn, get?_set] at hkeys
  split at hkeys
  · cases hkeys
    exact size_set_ne_zero _ _ _
  · exact h g' keys hkeys

variable {m : JsMap γ (JsMap κ ν)}

theorem NoEmptyGroup.dropIn (h : NoEmptyGroup m) (g : γ) (k : κ) : NoEmptyGroup (m.dropIn g k) := by
  intro g' keys hkeys
  unfold JsMap.dropIn at hkeys
  split at hkeys
  · exact h g' keys hkeys
  · split at hkeys
    · rw [get?_delete] at hkeys
      split at hkeys
      · cases hkeys
      · exact h g' keys hkeys
    · next hsize =>
      rw [get?_set] at hkeys
      split at hkeys
      · cases hkeys
        exact hsize
      · exact h g' keys hkeys

/-! ## Indexes of a function -/

/-- The index lists each key under its group, with its value, and nothing else. -/
structure Indexes (m : JsMap γ (JsMap κ ν)) (f : κ → Option (γ × ν)) : Prop where
  get?_group : ∀ g k, (m.group g).get? k = ((f k).filter fun e => e.1 = g).map Prod.snd
  noEmptyGroup : NoEmptyGroup m

theorem Indexes.empty : (∅ : JsMap γ (JsMap κ ν)).Indexes fun _ => none :=
  ⟨fun _ _ => rfl, fun _ _ h => by cases h⟩

theorem Indexes.mem_keys (h : m.Indexes f) : k ∈ (m.group g).keys ↔ ∃ v, f k = some (g, v) := by
  rw [mem_keys_iff, h.get?_group]
  rcases f k with _ | ⟨g', v⟩
  · simp
  · by_cases hg : g' = g <;> simp [hg]

/-- A key leaves its group. -/
theorem Indexes.dropIn (h : m.Indexes f) (hk : f k = some (g, v)) :
    (m.dropIn g k).Indexes (Function.update f k none) where
  get?_group := fun g' k' => by
    rw [group_dropIn]
    by_cases hk' : k' = k
    · subst hk'
      by_cases hg : g' = g
      · simp [hg]
      · simp [hg, h.get?_group, hk, Ne.symm hg]
    · by_cases hg : g' = g <;> simp [hg, hk', h.get?_group, get?_delete]
  noEmptyGroup := h.noEmptyGroup.dropIn g k

/-- A new key joins a group. -/
theorem Indexes.putIn (h : m.Indexes f) (g : γ) (v : ν) (hk : f k = none) :
    (m.putIn g k v).Indexes (Function.update f k (some (g, v))) where
  get?_group := fun g' k' => by
    rw [group_putIn]
    by_cases hk' : k' = k
    · subst hk'
      by_cases hg : g' = g
      · simp [hg, Option.filter_some]
      · simp [hg, h.get?_group, hk, Option.filter_some, Ne.symm hg]
    · by_cases hg : g' = g <;> simp [hg, hk', h.get?_group, get?_set]
  noEmptyGroup := h.noEmptyGroup.putIn g k v

end StonePlus.JsMap
