import Mathlib.Data.List.Nodup
import Mathlib.Data.List.Dedup

/-!
# StonePlus.Js.Map

Insertion-ordered maps: the `Map` of ECMAScript as a data structure.

A map is the list of its entries in the order their keys were first
inserted, with pairwise distinct keys as a field, so iteration order is part
of the value.  `set` on a present key keeps the key's position; `delete`
followed by `set` moves it to the end.  Clients never look at the entry
list: they rewrite with `get?_set`, `get?_delete` and `mem_keys_iff`.
-/

namespace StonePlus

universe u v

/-- An insertion-ordered map with pairwise distinct keys. -/
structure JsMap (κ : Type u) (ν : Type v) where
  entries : List (κ × ν)
  nodup : (entries.map Prod.fst).Nodup

namespace JsMap

variable {κ : Type u} {ν : Type v}

/-- Maps with the same entries in the same order are equal. -/
@[ext] theorem ext {n : JsMap κ ν} (h : m.entries = n.entries) : m = n := by
  obtain ⟨es, hes⟩ := m
  obtain ⟨fs, hfs⟩ := n
  cases h
  rfl

instance [DecidableEq κ] [DecidableEq ν] : DecidableEq (JsMap κ ν) :=
  fun m n => decidable_of_iff (m.entries = n.entries) ⟨ext, fun h => h ▸ rfl⟩

/-- The map with no entries. -/
def empty : JsMap κ ν := ⟨[], List.nodup_nil⟩

instance : EmptyCollection (JsMap κ ν) := ⟨empty⟩

instance : Inhabited (JsMap κ ν) := ⟨empty⟩

/-- The keys, in insertion order. -/
def keys (m : JsMap κ ν) : List κ := m.entries.map Prod.fst

/-- The values, in insertion order of their keys. -/
def values (m : JsMap κ ν) : List ν := m.entries.map Prod.snd

/-- `Map.prototype.size`. -/
def size (m : JsMap κ ν) : Nat := m.entries.length

@[simp] theorem keys_empty : (∅ : JsMap κ ν).keys = [] := rfl

@[simp] theorem size_empty : (∅ : JsMap κ ν).size = 0 := rfl

theorem nodup_keys (m : JsMap κ ν) : m.keys.Nodup := m.nodup

theorem length_keys (m : JsMap κ ν) : m.keys.length = m.size := by
  simp [keys, size]

variable [DecidableEq κ]

/-! ## Lookup -/

/-- The value of the first entry with key `k`. -/
def lookup (k : κ) : List (κ × ν) → Option ν
  | [] => none
  | e :: es => if e.1 = k then some e.2 else lookup k es

/-- `Map.prototype.get`; `undefined` is `none`. -/
def get? (m : JsMap κ ν) (k : κ) : Option ν := lookup k m.entries

/-- `Map.prototype.has`. -/
def has (m : JsMap κ ν) (k : κ) : Bool := (m.get? k).isSome

/-- `map.get(k) ?? fallback`. -/
def getD (m : JsMap κ ν) (k : κ) (fallback : ν) : ν := (m.get? k).getD fallback

@[simp] theorem get?_empty (k : κ) : (∅ : JsMap κ ν).get? k = none := rfl

@[simp] theorem getD_empty (k : κ) (d : ν) : (∅ : JsMap κ ν).getD k d = d := rfl

variable {es : List (κ × ν)}

theorem lookup_eq_none_iff : lookup k es = none ↔ k ∉ es.map Prod.fst := by
  induction es with
  | nil => simp [lookup]
  | cons e es ih =>
      by_cases h : e.1 = k
      · simp [lookup, h]
      · simp [lookup, h, ih, Ne.symm h]

variable {m : JsMap κ ν}

theorem get?_eq_none_iff {k : κ} : m.get? k = none ↔ k ∉ m.keys :=
  lookup_eq_none_iff

theorem mem_keys_iff : k ∈ m.keys ↔ ∃ v, m.get? k = some v := by
  rw [← Option.isSome_iff_exists, Option.isSome_iff_ne_none, Ne, get?_eq_none_iff, not_not]

theorem lookup_eq_some_iff (h : (es.map Prod.fst).Nodup) : lookup k es = some v ↔ (k, v) ∈ es := by
  induction es with
  | nil => simp [lookup]
  | cons e es ih =>
      obtain ⟨hnot, hes⟩ := List.nodup_cons.mp h
      by_cases hk : e.1 = k
      · subst hk
        have hout : (e.1, v) ∉ es := fun hmem => hnot (List.mem_map.mpr ⟨_, hmem, rfl⟩)
        simp [lookup, hout, Prod.ext_iff, eq_comm]
      · simp [lookup, hk, ih hes, Prod.ext_iff, Ne.symm hk]

/-- A key is bound to exactly the value of its entry. -/
theorem get?_eq_some_iff {v : ν} : m.get? k = some v ↔ (k, v) ∈ m.entries :=
  lookup_eq_some_iff m.nodup

theorem mem_values_iff : v ∈ m.values ↔ ∃ k, m.get? k = some v := by
  simp [values, get?_eq_some_iff]

/-! ## Update -/

/-- Rebind `k` in place, or append it when it is absent. -/
def setEntries (k : κ) (v : ν) : List (κ × ν) → List (κ × ν)
  | [] => [(k, v)]
  | e :: es => if e.1 = k then (k, v) :: es else e :: setEntries k v es

theorem keys_setEntries (k : κ) (v : ν) (es : List (κ × ν)) :
    (setEntries k v es).map Prod.fst =
      if k ∈ es.map Prod.fst then es.map Prod.fst else es.map Prod.fst ++ [k] := by
  induction es with
  | nil => simp [setEntries]
  | cons e es ih =>
      by_cases h : e.1 = k
      · simp [setEntries, h]
      · by_cases hmem : k ∈ es.map Prod.fst
        · rw [if_pos hmem] at ih
          rw [setEntries, if_neg h, List.map_cons, ih, if_pos (by simp_all)]
          rfl
        · rw [if_neg hmem] at ih
          rw [setEntries, if_neg h, List.map_cons, ih, if_neg (by simp_all [eq_comm])]
          rfl

theorem nodup_setEntries (k : κ) (v : ν) (h : (es.map Prod.fst).Nodup) :
    ((setEntries k v es).map Prod.fst).Nodup := by
  rw [keys_setEntries]
  split
  · exact h
  · next hmem => exact List.nodup_append'.mpr ⟨h, List.nodup_singleton k, by simpa using hmem⟩

/-- `Map.prototype.set`. -/
def set (m : JsMap κ ν) (k : κ) (v : ν) : JsMap κ ν :=
  ⟨setEntries k v m.entries, nodup_setEntries k v m.nodup⟩

theorem setEntries_of_not_mem (h : k ∉ es.map Prod.fst) : setEntries k v es = es ++ [(k, v)] := by
  induction es with
  | nil => rfl
  | cons e es ih =>
      rw [List.map_cons, List.mem_cons, not_or] at h
      rw [setEntries, if_neg (fun he => h.1 he.symm), ih h.2]
      rfl

theorem mem_setEntries (h : e ∈ setEntries k v es) : e = (k, v) ∨ e ∈ es := by
  induction es with
  | nil => exact .inl (by simpa [setEntries] using h)
  | cons e' es ih =>
      unfold setEntries at h
      split at h
      · rcases List.mem_cons.mp h with rfl | h
        · exact .inl rfl
        · exact .inr (List.mem_cons_of_mem _ h)
      · rcases List.mem_cons.mp h with rfl | h
        · exact .inr List.mem_cons_self
        · exact (ih h).imp id (List.mem_cons_of_mem _)

/-- Delete every key the predicate rejects: the loop
`for (const key of map.keys()) if (!keep(key)) map.delete(key)`. -/
def filterKeys (m : JsMap κ ν) (keep : κ → Bool) : JsMap κ ν :=
  ⟨m.entries.filter fun e => keep e.1,
    m.nodup.sublist (List.Sublist.map _ List.filter_sublist)⟩

/-- `Map.prototype.delete`. -/
def delete (m : JsMap κ ν) (k : κ) : JsMap κ ν := m.filterKeys fun k' => decide (k' ≠ k)

theorem lookup_setEntries (k k' : κ) (v : ν) (es : List (κ × ν)) :
    lookup k' (setEntries k v es) = if k' = k then some v else lookup k' es := by
  induction es with
  | nil => simp [setEntries, lookup, eq_comm]
  | cons e es ih =>
      by_cases he : e.1 = k
      · by_cases hk : k' = k
        · simp [setEntries, lookup, he, hk]
        · simp [setEntries, lookup, he, hk, Ne.symm hk]
      · by_cases hk : k' = k
        · subst hk; simp [setEntries, lookup, he, ih]
        · simp [setEntries, lookup, he, ih, hk]

theorem get?_set (m : JsMap κ ν) (k k' : κ) (v : ν) :
    (m.set k v).get? k' = if k' = k then some v else m.get? k' :=
  lookup_setEntries k k' v m.entries

@[simp] theorem get?_set_self (m : JsMap κ ν) (k : κ) (v : ν) : (m.set k v).get? k = some v := by
  simp [get?_set]

theorem setEntries_setEntries (k : κ) (v w : ν) (es : List (κ × ν)) :
    setEntries k w (setEntries k v es) = setEntries k w es := by
  induction es with
  | nil => simp [setEntries]
  | cons e es ih =>
      obtain ⟨k', v'⟩ := e
      by_cases hk : k' = k
      · simp [setEntries, hk]
      · simp [setEntries, hk, ih]

@[simp] theorem set_set (m : JsMap κ ν) (k : κ) (v w : ν) : (m.set k v).set k w = m.set k w :=
  ext (setEntries_setEntries k v w m.entries)

theorem get?_set_of_ne (m : JsMap κ ν) (v : ν) (h : k' ≠ k) : (m.set k v).get? k' = m.get? k' := by
  simp [get?_set, h]

theorem lookup_filter (keep : κ → Bool) (k : κ) (es : List (κ × ν)) :
    lookup k (es.filter fun e => keep e.1) = if keep k then lookup k es else none := by
  induction es with
  | nil => simp [lookup]
  | cons e es ih =>
      by_cases hk : e.1 = k
      · subst hk
        by_cases he : keep e.1 <;> simp [he, ih, lookup]
      · by_cases he : keep e.1 <;> simp [he, ih, lookup, hk]

theorem get?_filterKeys (m : JsMap κ ν) (keep : κ → Bool) (k : κ) :
    (m.filterKeys keep).get? k = if keep k then m.get? k else none :=
  lookup_filter keep k m.entries

theorem get?_delete (m : JsMap κ ν) (k k' : κ) :
    (m.delete k).get? k' = if k' = k then none else m.get? k' := by
  rw [delete, get?_filterKeys]
  by_cases h : k' = k <;> simp [h]

@[simp] theorem get?_delete_self (m : JsMap κ ν) (k : κ) : (m.delete k).get? k = none := by
  simp [get?_delete]

theorem get?_delete_of_ne (m : JsMap κ ν) (h : k' ≠ k) : (m.delete k).get? k' = m.get? k' := by
  simp [get?_delete, h]

theorem getD_set (m : JsMap κ ν) (k k' : κ) (v d : ν) :
    (m.set k v).getD k' d = if k' = k then v else m.getD k' d := by
  unfold getD
  rw [get?_set]
  split <;> rfl

theorem getD_delete (m : JsMap κ ν) (k k' : κ) (d : ν) :
    (m.delete k).getD k' d = if k' = k then d else m.getD k' d := by
  unfold getD
  rw [get?_delete]
  split <;> rfl

theorem has_eq_true_iff : m.has k = true ↔ k ∈ m.keys := by
  rw [has, Option.isSome_iff_exists, mem_keys_iff]

theorem mem_keys_set : k' ∈ (m.set k v).keys ↔ k' = k ∨ k' ∈ m.keys := by
  by_cases h : k' = k <;> simp [mem_keys_iff, get?_set, h]

theorem entries_delete (m : JsMap κ ν) (k : κ) :
    (m.delete k).entries = m.entries.filter fun e => decide (e.1 ≠ k) := rfl

end JsMap

end StonePlus
