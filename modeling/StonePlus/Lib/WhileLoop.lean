import Mathlib.Tactic.TypeStar

/-!
# StonePlus.Lib.WhileLoop

Loops `while (guard) body` run on fuel.

`step` is one turn, `none` where the guard fails.  A measure that every turn lowers bounds the
fuel: with that much the loop has ended, and more changes nothing.
-/

namespace StonePlus.Lib.WhileLoop

universe u

variable {σ : Type u} {step : σ → Option σ}

/-- The state after at most `fuel` turns. -/
def run (step : σ → Option σ) : Nat → σ → σ
  | 0, s => s
  | fuel + 1, s =>
      match step s with
      | none => s
      | some s' => run step fuel s'

theorem run_of_none (h : step s = none) (fuel : Nat) : run step fuel s = s := by
  cases fuel with
  | zero => rfl
  | succ fuel => simp [run, h]

/-- A loop that has ended stays where it is. -/
theorem run_add (h : step (run step fuel s) = none) (more : Nat) :
    run step (fuel + more) s = run step fuel s := by
  induction fuel generalizing s with
  | zero => exact (congrArg (run step · s) (Nat.zero_add more)).trans (run_of_none h more)
  | succ fuel ih =>
      rw [Nat.add_right_comm]
      unfold run at h ⊢
      rcases hs : step s with _ | s'
      · rfl
      · rw [hs] at h
        exact ih h

variable {Inv : σ → Prop} {measure : σ → Nat}

/-- The loop rule: the invariant holds at the end, and the guard fails there. -/
theorem run_spec (hstep : ∀ s s', Inv s → step s = some s' → Inv s' ∧ measure s' < measure s)
    (h : Inv s) (hfuel : measure s ≤ fuel) :
    Inv (run step fuel s) ∧ step (run step fuel s) = none := by
  induction fuel generalizing s with
  | zero =>
      refine ⟨h, ?_⟩
      show step s = none
      rcases hs : step s with _ | s'
      · rfl
      · have := (hstep s s' h hs).2
        omega
  | succ fuel ih =>
      unfold run
      rcases hs : step s with _ | s'
      · exact ⟨h, hs⟩
      · obtain ⟨h', hlt⟩ := hstep s s' h hs
        exact ih h' (by omega)

end StonePlus.Lib.WhileLoop
