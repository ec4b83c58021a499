import Mathlib.Data.Finset.Card
import Mathlib.Data.List.Dedup
import Mathlib.Data.List.Induction

/-!
# StonePlus.Lib.Grouping

Entries collected under keys, in the order in which the keys first occur.

`upsert` changes the entry of a key in place or appends one; `collect` does so for the items of
a list.  Collecting commutes with renaming keys and with reading entries, so whatever is
collected is read off the groups of items with one key.
-/

namespace StonePlus.Lib

variable {α β β' κ κ' : Type} [DecidableEq κ] [DecidableEq κ']

/-- Change the entry of a key, or append one. -/
def upsert (k : κ) (f : Option β → β) : List (κ × β) → List (κ × β)
  | [] => [(k, f none)]
  | e :: es => if e.1 = k then (k, f (some e.2)) :: es else e :: upsert k f es

/-- Collect the items of a list under their keys. -/
def collect (key : α → κ) (f : α → Option β → β) (as : List α) : List (κ × β) :=
  as.foldl (fun es a => upsert (key a) (f a) es) []

/-- The items with one key, for each key. -/
def groups (key : α → κ) (as : List α) : List (List α) :=
  (collect key (fun a group => group.getD [] ++ [a]) as).map Prod.snd

theorem keys_upsert (k : κ) (f : Option β → β) (es : List (κ × β)) :
    (upsert k f es).map Prod.fst =
      if k ∈ es.map Prod.fst then es.map Prod.fst else es.map Prod.fst ++ [k] := by
  induction es with
  | nil => simp [upsert]
  | cons e es ih =>
      unfold upsert
      by_cases h : e.1 = k
      · simp [h]
      · rw [if_neg h, List.map_cons, ih]
        by_cases hmem : k ∈ es.map Prod.fst
        · simp [hmem]
        · rw [if_neg hmem, List.map_cons, if_neg (by simp_all [eq_comm])]
          rfl

/-- Renaming keys and reading entries commute with a change. -/
theorem map_upsert {φ : κ → κ'} {ψ : β → β'} (hφ : ∀ k' ∈ es.map Prod.fst, φ k' = φ k → k' = k)
    (hψ : ∀ o, ψ (f o) = f' (o.map ψ)) :
    (upsert k f es).map (Prod.map φ ψ) = upsert (φ k) f' (es.map (Prod.map φ ψ)) := by
  induction es with
  | nil => simp [upsert, hψ]
  | cons e es ih =>
      rw [List.map_cons, List.forall_mem_cons] at hφ
      unfold upsert
      by_cases h : e.1 = k
      · subst h
        simp [hψ]
      · have hne : φ e.1 ≠ φ k := fun heq => h (hφ.1 heq)
        simp [h, hne, ih hφ.2]

theorem collect_append (key : α → κ) (f : α → Option β → β) (as : List α) (a : α) :
    collect key f (as ++ [a]) = upsert (key a) (f a) (collect key f as) := by
  simp [collect]

variable {key : α → κ}

theorem mem_keys_collect {f : α → Option β → β} {as : List α} {k : κ} :
    k ∈ (collect key f as).map Prod.fst ↔ k ∈ as.map key := by
  induction as using List.reverseRecOn with
  | nil => simp [collect]
  | append_singleton as a ih =>
      rw [collect_append, keys_upsert, List.map_append, List.mem_append, ← ih]
      split
      · next hmem =>
        constructor
        · exact .inl
        · rintro (h | h)
          · exact h
          · rw [List.map_singleton, List.mem_singleton] at h
            exact h ▸ hmem
      · rw [List.mem_append]
        simp

/-- What is collected under renamed keys, read entry by entry. -/
theorem map_collect {key : α → κ} {f : α → Option β → β} {f' : α → Option β' → β'} {φ : κ → κ'}
    {ψ : β → β'} {as : List α}
    (hφ : ∀ a ∈ as, ∀ b ∈ as, φ (key a) = φ (key b) → key a = key b)
    (hψ : ∀ a o, ψ (f a o) = f' a (o.map ψ)) :
    (collect key f as).map (Prod.map φ ψ) = collect (fun a => φ (key a)) f' as := by
  induction as using List.reverseRecOn with
  | nil => rfl
  | append_singleton as a ih =>
      have hinit := ih fun b hb c hc => hφ b (by simp [hb]) c (by simp [hc])
      rw [collect_append, collect_append, ← hinit]
      refine map_upsert (fun k hk heq => ?_) (hψ a)
      obtain ⟨b, hb, rfl⟩ := List.mem_map.mp (mem_keys_collect.mp hk)
      exact hφ b (by simp [hb]) a (by simp) heq

/-- What is collected is read off the groups. -/
theorem values_collect {key : α → κ} {f : α → Option β → β} {ψ : List α → β}
    (hψ : ∀ a group, ψ (Option.getD group [] ++ [a]) = f a (group.map ψ)) (as : List α) :
    (collect key f as).map Prod.snd = (groups key as).map ψ := by
  have h := @map_collect α (List α) β κ κ _ _ key (fun a group => group.getD [] ++ [a]) f id ψ as
    (fun _ _ _ _ heq => heq) hψ
  rw [groups, List.map_map]
  have hkeys : (fun a => id (key a)) = key := rfl
  rw [hkeys] at h
  rw [← h, List.map_map]
  rfl

/-- The groups are the same for keys that are renamed. -/
theorem groups_rename {key : α → κ} {φ : κ → κ'} {as : List α}
    (hφ : ∀ a ∈ as, ∀ b ∈ as, φ (key a) = φ (key b) → key a = key b) :
    groups (fun a => φ (key a)) as = groups key as := by
  have h := @map_collect α (List α) (List α) κ κ' _ _ key (fun a group => group.getD [] ++ [a])
    (fun a group => group.getD [] ++ [a]) φ id as hφ (by simp)
  rw [groups, groups, ← h, List.map_map]
  rfl

/-- The groups are the same for keys that tell the same items apart. -/
theorem groups_congr {key' : α → κ'} (h : ∀ a ∈ as, ∀ b ∈ as, key a = key b ↔ key' a = key' b) :
    groups key as = groups key' as := by
  have hleft := @groups_rename α (κ × κ') κ _ _ (fun a => (key a, key' a)) Prod.fst as
    fun a ha b hb heq => Prod.ext heq ((h a ha b hb).mp heq)
  have hright := @groups_rename α (κ × κ') κ' _ _ (fun a => (key a, key' a)) Prod.snd as
    fun a ha b hb heq => Prod.ext ((h a ha b hb).mpr heq) heq
  exact hleft.trans hright.symm

/-! ## The groups as parts of the list -/

/-- The keys in the order in which they first occur. -/
def firstKeys (key : α → κ) (as : List α) : List κ :=
  (collect key (fun a group => group.getD [] ++ [a]) as).map Prod.fst

theorem mem_firstKeys {k : κ} : k ∈ firstKeys key as ↔ ∃ a ∈ as, key a = k := by
  rw [firstKeys, mem_keys_collect, List.mem_map]

theorem nodup_firstKeys (key : α → κ) (as : List α) : (firstKeys key as).Nodup := by
  induction as using List.reverseRecOn with
  | nil => exact List.nodup_nil
  | append_singleton as a ih =>
      rw [firstKeys, collect_append, keys_upsert]
      split
      · exact ih
      · next hmem =>
        exact List.nodup_append'.mpr ⟨ih, List.nodup_singleton _, by simpa [eq_comm] using hmem⟩

/-- A change to entries that are listed key by key. -/
theorem upsert_map {g : κ → β} {ks : List κ} (hnodup : ks.Nodup) :
    upsert k f (ks.map fun k' => (k', g k')) =
      if k ∈ ks then ks.map fun k' => (k', if k' = k then f (some (g k)) else g k')
      else (ks.map fun k' => (k', g k')) ++ [(k, f none)] := by
  induction ks with
  | nil => rfl
  | cons k' ks ih =>
      obtain ⟨hnot, hnodup⟩ := List.nodup_cons.mp hnodup
      rw [List.map_cons, upsert]
      by_cases h : k' = k
      · subst h
        have hrest : ks.map (fun k => (k, if k = k' then f (some (g k')) else g k)) =
            ks.map fun k => (k, g k) := by
          refine List.map_congr_left fun k hk => ?_
          rw [if_neg fun heq : k = k' => hnot (heq ▸ hk)]
        simp [hrest]
      · rw [if_neg h, ih hnodup]
        by_cases hmem : k ∈ ks
        · simp [h, hmem]
        · simp [hmem, Ne.symm h]

theorem collect_eq (key : α → κ) (as : List α) :
    collect key (fun a group => group.getD [] ++ [a]) as =
      (firstKeys key as).map fun k => (k, as.filter fun a => key a = k) := by
  induction as using List.reverseRecOn with
  | nil => rfl
  | append_singleton as a ih =>
      have hkeys : firstKeys key (as ++ [a]) =
          if key a ∈ firstKeys key as then firstKeys key as else firstKeys key as ++ [key a] := by
        rw [firstKeys, collect_append, keys_upsert]
        rfl
      rw [collect_append, ih, upsert_map (nodup_firstKeys key as), hkeys]
      split
      · refine List.map_congr_left fun k _ => ?_
        by_cases hk : k = key a
        · subst hk
          simp
        · simp [hk, Ne.symm hk]
      · next hmem =>
        have hempty : as.filter (fun b => key b = key a) = [] := by
          rw [List.filter_eq_nil_iff]
          intro b hb heq
          exact hmem (mem_firstKeys.mpr ⟨b, hb, by simpa using heq⟩)
        rw [List.map_append]
        congr 1
        · refine List.map_congr_left fun k hk => ?_
          have hne : key a ≠ k := fun heq => hmem (heq ▸ hk)
          simp [hne]
        · simp [hempty]

theorem groups_eq (key : α → κ) (as : List α) :
    groups key as = (firstKeys key as).map fun k => as.filter fun a => key a = k := by
  rw [groups, collect_eq, List.map_map]
  rfl

theorem length_groups (key : α → κ) (as : List α) :
    (groups key as).length = (as.map key).dedup.length := by
  rw [groups_eq, List.length_map]
  refine List.Perm.length_eq ((List.perm_ext_iff_of_nodup (nodup_firstKeys key as)
    (List.nodup_dedup _)).mpr fun k => ?_)
  rw [mem_firstKeys, List.mem_dedup, List.mem_map]

/-- Keys that make as many groups as finer keys make the same groups. -/
theorem key_eq_of_length_groups {fine : α → κ'}
    (hfine : ∀ a ∈ as, ∀ b ∈ as, fine a = fine b → key a = key b)
    (hlength : (groups key as).length = (groups fine as).length) (ha : a ∈ as) (hb : b ∈ as)
    (heq : key a = key b) : fine a = fine b := by
  let pairs : Finset (κ' × κ) := (as.map fun a => (fine a, key a)).toFinset
  have hmem : ∀ {a}, a ∈ as → (fine a, key a) ∈ (pairs : Set (κ' × κ)) := fun ha =>
    Finset.mem_coe.mpr (List.mem_toFinset.mpr (List.mem_map.mpr ⟨_, ha, rfl⟩))
  have hof : ∀ p ∈ (pairs : Set (κ' × κ)), ∃ a ∈ as, (fine a, key a) = p := fun p hp =>
    List.mem_map.mp (List.mem_toFinset.mp (Finset.mem_coe.mp hp))
  have hfst : pairs.image Prod.fst = (as.map fine).toFinset := by
    ext k
    simp [pairs]
  have hsnd : pairs.image Prod.snd = (as.map key).toFinset := by
    ext k
    simp [pairs]
  have hcard : (pairs.image Prod.snd).card = pairs.card := by
    have hinj : Set.InjOn Prod.fst (pairs : Set (κ' × κ)) := by
      intro p hp q hq hpq
      obtain ⟨a, ha, rfl⟩ := hof p hp
      obtain ⟨b, hb, rfl⟩ := hof q hq
      exact Prod.ext hpq (hfine a ha b hb hpq)
    rw [← Finset.card_image_of_injOn hinj, hfst, hsnd, List.card_toFinset, List.card_toFinset,
      ← length_groups, ← length_groups, hlength]
  exact congrArg Prod.fst (Finset.card_image_iff.mp hcard (hmem ha) (hmem hb) heq)

/-! ## Members -/

theorem sublist_of_mem_groups (h : g ∈ groups key as) : g.Sublist as := by
  rw [groups_eq] at h
  obtain ⟨k, -, rfl⟩ := List.mem_map.mp h
  exact List.filter_sublist

theorem key_eq_of_mem_groups (h : g ∈ groups key as) (ha : a ∈ g) (hb : b ∈ g) : key a = key b := by
  rw [groups_eq] at h
  obtain ⟨k, -, rfl⟩ := List.mem_map.mp h
  have hka := List.of_mem_filter ha
  have hkb := List.of_mem_filter hb
  exact (of_decide_eq_true hka).trans (of_decide_eq_true hkb).symm

/-- Items with one key stand in one group, in order. -/
theorem exists_group {as : List α} (h : [a, b].Sublist as) (heq : key a = key b) :
    ∃ g ∈ groups key as, [a, b].Sublist g := by
  rw [groups_eq]
  refine ⟨as.filter fun c => key c = key a, List.mem_map.mpr ⟨key a, ?_, rfl⟩, ?_⟩
  · exact mem_firstKeys.mpr ⟨a, h.subset (by simp), rfl⟩
  · have hfilter := h.filter fun c => key c = key a
    simpa [heq] using hfilter

end StonePlus.Lib
