import Mathlib.Data.List.Range
import Mathlib.Data.List.Nodup
import Mathlib.Data.List.Perm.Subperm

/-!
# StonePlus.Lib.Fresh

The first of a row of names that is not taken.  As many turns as there are names taken are
enough, since the names of the row differ.
-/

namespace StonePlus.Lib

variable {α : Type} [DecidableEq α]

/-- The loop `while (taken name) n += 1`, on fuel. -/
def firstFree (taken : List α) (name : Nat → α) : Nat → Nat → Nat
  | 0, n => n
  | fuel + 1, n => if name n ∈ taken then firstFree taken name fuel (n + 1) else n

variable {taken : List α} {name : Nat → α}

/-- The loop ends at a free name, or it has passed only names that are taken. -/
theorem firstFree_spec (fuel n : Nat) :
    name (firstFree taken name fuel n) ∉ taken ∨ ∀ k < fuel, name (n + k) ∈ taken := by
  induction fuel generalizing n with
  | zero => exact .inr fun k hk => absurd hk (Nat.not_lt_zero k)
  | succ fuel ih =>
    unfold firstFree
    split
    · rename_i htaken
      refine (ih (n + 1)).imp_right fun hpassed k hk => ?_
      cases k with
      | zero => exact htaken
      | succ k =>
        have hnext := hpassed k (by omega)
        rwa [Nat.add_right_comm, Nat.add_assoc] at hnext
    · rename_i hfree
      exact .inl hfree

theorem firstFree_not_mem (hname : Function.Injective name) (n : Nat) :
    name (firstFree taken name (taken.length + 1) n) ∉ taken := by
  refine (firstFree_spec (taken.length + 1) n).resolve_right fun hpassed => ?_
  have hnodup : ((List.range (taken.length + 1)).map fun k => name (n + k)).Nodup :=
    List.nodup_range.map fun a b hab => Nat.add_left_cancel (hname hab)
  have hsub : ((List.range (taken.length + 1)).map fun k => name (n + k)) ⊆ taken := by
    intro x hx
    obtain ⟨k, hk, rfl⟩ := List.mem_map.mp hx
    exact hpassed k (List.mem_range.mp hk)
  have hlength := (hnodup.subperm hsub).length_le
  rw [List.length_map, List.length_range] at hlength
  omega

end StonePlus.Lib
