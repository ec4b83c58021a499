import StonePlus.Lib.Effect

/-!
# StonePlus.Lib.Respects

Relations between the state a program starts from, its output and the state
it leaves.

A relation that holds of doing nothing and composes holds of a program as
soon as it holds of the program's parts.
-/

namespace StonePlus.Lib.Effect

variable {σ ω ε α β : Type}

/-- Doing nothing is related, and so is one related run after another. -/
structure Composes (R : σ → List ω → σ → Prop) : Prop where
  refl : ∀ s, R s [] s
  trans : ∀ {s out s' out' s''}, R s out s' → R s' out' s'' → R s (out ++ out') s''

/-- Every run of the program is related, also one that throws. -/
def Respects (R : σ → List ω → σ → Prop) (m : Effect σ ω ε α) : Prop :=
  ∀ s, wp m s (fun _ s' out => R s out s') fun _ s' out => R s out s'

namespace Respects

variable {R R' : σ → List ω → σ → Prop} {m : Effect σ ω ε α}

theorem mono (h : Respects R m) (hsub : ∀ {s out s'}, R s out s' → R' s out s') : Respects R' m :=
  fun s => wp_mono (h s) (fun _ _ _ => hsub) fun _ _ _ => hsub

theorem modify (h : ∀ s, R s [] (f s)) : Respects (ε := ε) R (Effect.modify f) := h

theorem emit (h : ∀ s, R s [w] s) : Respects (ε := ε) R (Effect.emit w) := h

theorem ite {c : Prop} [Decidable c] (hm : c → Respects R m) (hn : ¬c → Respects R n) :
    Respects R (if c then m else n) := by
  split
  · next h => exact hm h
  · next h => exact hn h

end Respects

namespace Composes

variable {R : σ → List ω → σ → Prop} {m : Effect σ ω ε α}

theorem pure (hR : Composes R) (a : α) : Respects (ε := ε) R (Pure.pure a) := fun s => hR.refl s

theorem get (hR : Composes R) : Respects (ε := ε) R Effect.get := fun s => hR.refl s

theorem bind (hR : Composes R) {f : α → Effect σ ω ε β} (hm : Respects R m)
    (hf : ∀ a, Respects R (f a)) : Respects R (m >>= f) := fun s => by
  rw [wp_bind]
  exact wp_mono (hm s)
    (fun a s' _ h => wp_mono (hf a s') (fun _ _ _ => hR.trans h) fun _ _ _ => hR.trans h)
    fun _ _ _ h => h

/-- What the first part returns may be known. -/
theorem bind_of (hR : Composes R) {P : α → Prop} {f : α → Effect σ ω ε β} (hm : Respects R m)
    (hP : ∀ s, wp m s (fun a _ _ => P a) fun _ _ _ => True) (hf : ∀ a, P a → Respects R (f a)) :
    Respects R (m >>= f) := fun s => by
  rw [wp_bind]
  refine wp_mono (wp_and (hm s) (hP s)) ?_ fun _ _ _ h => h.1
  exact fun a s' _ h => wp_mono (hf a h.2 s') (fun _ _ _ => hR.trans h.1) fun _ _ _ => hR.trans h.1

theorem whenever (hR : Composes R) {c : Prop} [Decidable c] {m : Effect σ ω ε Unit}
    (hm : c → Respects R m) : Respects R (Effect.whenever c m) :=
  Respects.ite hm fun _ => hR.pure ()

theorem forM (hR : Composes R) (hf : ∀ a, Respects R (f a)) (as : List α) :
    Respects R (as.forM f) := by
  induction as with
  | nil => exact hR.pure ()
  | cons a as ih => exact hR.bind (hf a) fun _ => ih

end Composes

end StonePlus.Lib.Effect
