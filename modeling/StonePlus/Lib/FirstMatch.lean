import Mathlib.Data.List.Nodup

/-!
# StonePlus.Lib.FirstMatch

Tables whose entries are looked up by a predicate, first match first.

Each entry answers to its own question, but an earlier entry may answer to it
too.  The answers are pairwise distinct exactly when every entry finds itself.
-/

namespace StonePlus.Lib

variable {α β : Type} (answers : α → α → Bool)

/-- The answer to the question of an entry. -/
def lookup (table : List α) (entry : α) : Option α := table.find? (answers entry)

/-- No entry answers to the question of a later one. -/
def Unshadowed (table : List α) : Prop :=
  table.Pairwise fun earlier later => answers later earlier = false

instance (table : List α) : Decidable (Unshadowed answers table) :=
  inferInstanceAs (Decidable (table.Pairwise _))

variable {answers} {table : List α}

theorem lookup_isSome (hself : ∀ a ∈ table, answers a a = true) (ha : a ∈ table) :
    ∃ b ∈ table, lookup answers table a = some b := by
  have hsome : (table.find? (answers a)).isSome = true :=
    List.find?_isSome.mpr ⟨a, ha, hself a ha⟩
  obtain ⟨b, hb⟩ := Option.isSome_iff_exists.mp hsome
  exact ⟨b, List.mem_of_find?_eq_some hb, hb⟩

/-- In a table without shadows every entry finds itself. -/
theorem lookup_of_unshadowed (h : Unshadowed answers table)
    (hself : ∀ a ∈ table, answers a a = true) : ∀ a ∈ table, lookup answers table a = some a := by
  induction table with
  | nil => simp
  | cons first table ih =>
      obtain ⟨hfirst, htable⟩ := List.pairwise_cons.mp h
      intro a ha
      rcases List.mem_cons.mp ha with rfl | ha
      · rw [lookup, List.find?_cons_of_pos (hself a List.mem_cons_self)]
      · rw [lookup, List.find?_cons_of_neg (by simp [hfirst a ha])]
        exact ih htable (fun b hb => hself b (List.mem_cons_of_mem first hb)) a ha

/-- Answers with pairwise distinct values leave no shadow. -/
theorem unshadowed_of_nodup (f : α → β) (hself : ∀ a ∈ table, answers a a = true)
    (hnodup : (table.map fun a => (lookup answers table a).map f).Nodup) :
    Unshadowed answers table := by
  -- the table is read from its front: the entries read so far find themselves
  suffices h : ∀ before rest, before ++ rest = table →
      (∀ a ∈ before, lookup answers table a = some a) → Unshadowed answers rest ∧
        ∀ a ∈ before, ∀ b ∈ rest, answers b a = false by
    exact (h [] table rfl (by simp)).1
  intro before rest
  induction rest generalizing before with
  | nil => exact fun _ _ => ⟨List.Pairwise.nil, by simp⟩
  | cons b rest ih =>
      intro htable hbefore
      have hmem (a : α) (ha : a ∈ before) : a ∈ table :=
        htable ▸ List.mem_append_left _ ha
      have hb : b ∈ table := htable ▸ List.mem_append_right _ List.mem_cons_self
      have hnot : ∀ a ∈ before, answers b a = false := by
        -- an entry before `b` that answers to it gives `b` an answer given before
        by_contra hshadow
        push Not at hshadow
        obtain ⟨a, ha, hanswers⟩ := hshadow
        have hsome : (before.find? (answers b)).isSome = true :=
          List.find?_isSome.mpr ⟨a, ha, by simpa using hanswers⟩
        obtain ⟨c, hc⟩ := Option.isSome_iff_exists.mp hsome
        have hcmem : c ∈ before := List.mem_of_find?_eq_some hc
        have hlookup : lookup answers table b = some c := by
          rw [lookup, ← htable, List.find?_append, hc, Option.some_or]
        have hsame : (lookup answers table b).map f = (lookup answers table c).map f := by
          rw [hlookup, hbefore c hcmem]
        rw [← htable, List.map_append, List.nodup_append] at hnodup
        exact hnodup.2.2 _ (List.mem_map.mpr ⟨c, hcmem, rfl⟩) _
          (List.mem_map.mpr ⟨b, List.mem_cons_self, rfl⟩) (by rw [htable, hsame])
      have hself' : lookup answers table b = some b := by
        have hnone : before.find? (answers b) = none := by
          rw [List.find?_eq_none]
          intro a ha
          simp [hnot a ha]
        rw [lookup, ← htable, List.find?_append, hnone, Option.none_or,
          List.find?_cons_of_pos (hself b hb)]
      obtain ⟨hrest, hafter⟩ := ih (before ++ [b]) (by simpa using htable) (by
        intro a ha
        rcases List.mem_append.mp ha with ha | ha
        · exact hbefore a ha
        · rw [List.mem_singleton.mp ha]
          exact hself')
      refine ⟨List.pairwise_cons.mpr ⟨fun c hc => hafter b (by simp) c hc, hrest⟩, ?_⟩
      intro a ha c hc
      rcases List.mem_cons.mp hc with rfl | hc
      · exact hnot a ha
      · exact hafter a (List.mem_append_left _ ha) c hc

/-- The answers are pairwise distinct if and only if every entry finds itself. -/
theorem nodup_lookup_iff (f : α → β) (hself : ∀ a ∈ table, answers a a = true)
    (hdistinct : (table.map f).Nodup) :
    (table.map fun a => (lookup answers table a).map f).Nodup ↔ Unshadowed answers table := by
  constructor
  · exact unshadowed_of_nodup f hself
  · intro h
    have heq : (table.map fun a => (lookup answers table a).map f) = (table.map f).map some := by
      rw [List.map_map]
      apply List.map_congr_left
      intro a ha
      rw [lookup_of_unshadowed h hself a ha]
      rfl
    rw [heq]
    exact hdistinct.map fun _ _ => Option.some.inj

end StonePlus.Lib
