import Mathlib.Data.List.Forall2

/-!
# StonePlus.Lib.Tally

A table whose rows are replaced in place, counters of the rows with some property and how they
change with one row, and tables that are compared row by row.
-/

namespace StonePlus.Lib

variable {α : Type} {l : List α} {i : Nat} {a b : α}

/-- What a row counts for is taken off, and what its replacement counts for is added. -/
theorem countP_set_add (p : α → Bool) (h : l[i]? = some a) :
    (l.set i b).countP p + (p a).toNat = l.countP p + (p b).toNat := by
  obtain ⟨hi, rfl⟩ := List.getElem?_eq_some_iff.mp h
  have hle := List.boole_getElem_le_countP (p := p) hi
  have htoNat (c : Bool) : c.toNat = if c then 1 else 0 := by cases c <;> rfl
  simp only [List.countP_set hi, htoNat]
  omega

theorem toNat_le_countP (p : α → Bool) (h : l[i]? = some a) : (p a).toNat ≤ l.countP p := by
  have hset := countP_set_add (b := a) p h
  have hpos : p a = true → 0 < l.countP p := fun ha =>
    List.countP_pos_iff.mpr ⟨a, List.mem_of_getElem? h, ha⟩
  cases hpa : p a with
  | true => exact hpos hpa
  | false => exact Nat.zero_le _

/-- A row that is there is read back as it was replaced. -/
theorem getElem?_set_of_some (h : l[i]? = some a) (b : α) (j : Nat) :
    (l.set i b)[j]? = if i = j then some b else l[j]? := by
  have hlt := (List.getElem?_eq_some_iff.mp h).1
  rw [List.getElem?_set]
  by_cases hij : i = j
  · subst hij
    simp [hlt]
  · simp [hij]

/-- A row that is read from the longer table is an old one or the one that was added. -/
theorem getElem?_concat_eq_some (h : (l ++ [b])[i]? = some a) :
    l[i]? = some a ∨ i = l.length ∧ a = b := by
  rw [List.getElem?_append] at h
  split at h
  · exact .inl h
  · rw [List.getElem?_singleton] at h
    split at h
    · exact .inr ⟨by omega, (Option.some.inj h).symm⟩
    · contradiction

/-! ## Row by row -/

variable {β γ : Type} {as : List α} {bs : List β} {cs : List γ}

theorem forall₂_trans (htrans : ∀ a b c, r a b → s b c → t a c) (h : List.Forall₂ r as bs)
    (h' : List.Forall₂ s bs cs) : List.Forall₂ t as cs := by
  induction h generalizing cs with
  | nil =>
    cases h'
    exact .nil
  | cons hab _ ih =>
    cases h' with
    | cons hbc hrest => exact .cons (htrans _ _ _ hab hbc) (ih hrest)

theorem exists_of_mem_right (h : List.Forall₂ r as bs) {b : β} (hb : b ∈ bs) : ∃ a ∈ as, r a b := by
  induction h with
  | nil => exact absurd hb List.not_mem_nil
  | cons hab _ ih =>
    rcases List.mem_cons.mp hb with rfl | hb
    · exact ⟨_, List.mem_cons_self, hab⟩
    · obtain ⟨a, ha, hr⟩ := ih hb
      exact ⟨a, List.mem_cons_of_mem _ ha, hr⟩

theorem forall₂_of_mem_right (h : List.Forall₂ r as bs) (himp : ∀ a, ∀ b, b ∈ bs → r a b → s a b) :
    List.Forall₂ s as bs := by
  induction h with
  | nil => exact .nil
  | cons hab _ ih =>
    refine .cons (himp _ _ List.mem_cons_self hab) (ih fun a b hb => ?_)
    exact himp a b (List.mem_cons_of_mem _ hb)

/-- What holds of any two rows before and of any two rows after, holds of them together. -/
theorem pairwise_of_forall₂ (h : List.Forall₂ r as bs) (hbefore : as.Pairwise p)
    (hafter : bs.Pairwise q) (hrows : ∀ a b c d, r a c → r b d → p a b → q c d → s c d) :
    bs.Pairwise s := by
  induction h with
  | nil => exact .nil
  | cons hab hrest ih =>
    rw [List.pairwise_cons] at hbefore hafter ⊢
    refine ⟨fun d hd => ?_, ih hbefore.2 hafter.2⟩
    obtain ⟨b, hb, hr⟩ := exists_of_mem_right hrest hd
    exact hrows _ b _ d hab hr (hbefore.1 b hb) (hafter.1 d hd)

end StonePlus.Lib
