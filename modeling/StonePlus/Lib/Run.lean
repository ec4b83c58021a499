import Mathlib.Data.List.Basic

/-!
# StonePlus.Lib.Run

Runs of a deterministic state machine: a state type, a step function and a
list of inputs.  `run` folds the inputs, `Along` says that every step of a
run meets a condition on the state it starts from, and the invariant rules
turn a fact about one step into a fact about every state a run reaches.
-/

namespace StonePlus.Lib

universe u v

variable {σ : Type u} {ι : Type v} (step : σ → ι → σ)

/-- The state after a list of inputs. -/
def run (s : σ) (inputs : List ι) : σ := inputs.foldl step s

@[simp] theorem run_nil (s : σ) : run step s [] = s := rfl

@[simp] theorem run_cons (s : σ) (i : ι) (is : List ι) :
    run step s (i :: is) = run step (step s i) is := rfl

theorem run_append (s : σ) (is js : List ι) :
    run step s (is ++ js) = run step (run step s is) js := List.foldl_append

/-- Every step of the run meets `ok` in the state it starts from. -/
def Along (ok : σ → ι → Prop) : σ → List ι → Prop
  | _, [] => True
  | s, i :: is => ok s i ∧ Along ok (step s i) is

/-- Whether a concrete run meets a decidable condition can be evaluated. -/
instance Along.decidable {ok : σ → ι → Prop} [∀ s i, Decidable (ok s i)] :
    ∀ s is, Decidable (Along step ok s is)
  | _, [] => .isTrue trivial
  | s, i :: is =>
      have : Decidable (Along step ok (step s i) is) := Along.decidable (step s i) is
      inferInstanceAs (Decidable (ok s i ∧ Along step ok (step s i) is))

variable {step}

/-- The steps of a run that meets `ok` meet it in every part of the run. -/
theorem along_append {ok : σ → ι → Prop} {s : σ} {is js : List ι} :
    Along step ok s (is ++ js) ↔ Along step ok s is ∧ Along step ok (run step s is) js := by
  induction is generalizing s with
  | nil => simp [Along]
  | cons i is ih => simp only [List.cons_append, Along, run_cons, ih, and_assoc]

/-- Conditions that agree on every step agree along every run. -/
theorem along_congr (h : ∀ s i, ok s i ↔ ok' s i) (s : σ) (is : List ι) :
    Along step ok s is ↔ Along step ok' s is := by
  induction is generalizing s with
  | nil => exact Iff.rfl
  | cons i is ih => exact and_congr (h s i) (ih _)

/-- A condition on the inputs alone holds along every run over such inputs. -/
theorem along_of_forall {ok : ι → Prop} {is : List ι} (h : ∀ i ∈ is, ok i) (s : σ) :
    Along step (fun _ i => ok i) s is := by
  induction is generalizing s with
  | nil => exact trivial
  | cons i is ih =>
      exact ⟨h i List.mem_cons_self, ih (fun j hj => h j (List.mem_cons_of_mem i hj)) _⟩

/-- An invariant that every `ok` step preserves holds at the end of every run
whose steps are `ok`. -/
theorem invariant_of_along (inv : σ → Prop) (hstep : ∀ s i, inv s → ok s i → inv (step s i))
    (hs : inv s) (h : Along step ok s is) : inv (run step s is) := by
  induction is generalizing s with
  | nil => exact hs
  | cons i is ih => exact ih (hstep s i hs h.1) h.2

/-- An invariant that every step preserves holds at the end of every run. -/
theorem invariant_run (inv : σ → Prop) (hstep : ∀ s i, inv s → inv (step s i)) (hs : inv s)
    (is : List ι) : inv (run step s is) := by
  induction is generalizing s with
  | nil => exact hs
  | cons i is ih => exact ih (hstep s i hs)

/-- A preorder that every step respects relates the ends of every run. -/
theorem run_rel {r : σ → σ → Prop} (hrefl : ∀ s, r s s) (htrans : ∀ a b c, r a b → r b c → r a c)
    (hstep : ∀ s i, r s (step s i)) (s : σ) (is : List ι) : r s (run step s is) := by
  induction is generalizing s with
  | nil => exact hrefl s
  | cons i is ih => exact htrans _ _ _ (hstep s i) (ih _)

end StonePlus.Lib
