import Mathlib.Data.List.Basic

/-!
# StonePlus.Lib.Effect

Programs with a state, an output and exceptions, and their weakest
preconditions.

A program runs from a state and returns a value or throws; either way it
leaves a state and the output it has written, and nothing is rolled back when
it throws.  `wp m s post fail` says that `m` run from `s` ends in `post` if it
returns and in `fail` if it throws.  There is one rewrite rule for each way to
build a program, and `wp_mono` weakens the two postconditions.
-/

namespace StonePlus.Lib

/-- A program over the state `σ` that writes `ω`s, throws `ε` or returns `α`. -/
def Effect (σ ω ε α : Type) := σ → Except ε α × σ × List ω

namespace Effect

variable {σ ω ε α β : Type}

instance : Monad (Effect σ ω ε) where
  pure a := fun s => (.ok a, s, [])
  bind m f := fun s =>
    match m s with
    | (.ok a, s', out) => ((f a s').1, (f a s').2.1, out ++ (f a s').2.2)
    | (.error e, s', out) => (.error e, s', out)

/-- The current state. -/
def get : Effect σ ω ε σ := fun s => (.ok s, s, [])

/-- Change the state. -/
def modify (f : σ → σ) : Effect σ ω ε Unit := fun s => (.ok (), f s, [])

/-- Write one item. -/
def emit (w : ω) : Effect σ ω ε Unit := fun s => (.ok (), s, [w])

/-- Throw. -/
def throw (e : ε) : Effect σ ω ε α := fun s => (.error e, s, [])

/-- A computation without effects that may throw. -/
instance : MonadLift (Except ε) (Effect σ ω ε) where
  monadLift x := fun s => (x, s, [])

/-- Throw unless a condition holds. -/
def ensure (c : Prop) [Decidable c] (e : ε) : Effect σ ω ε Unit :=
  if c then pure () else throw e

/-- Run a program only if a condition holds. -/
def whenever (c : Prop) [Decidable c] (m : Effect σ ω ε Unit) : Effect σ ω ε Unit :=
  if c then m else pure ()

/-- The program with other output. -/
def mapOutput {ω' : Type} (f : ω → ω') (m : Effect σ ω ε α) : Effect σ ω' ε α := fun s =>
  ((m s).1, (m s).2.1, (m s).2.2.map f)

/-! ## Running a program -/

theorem bind_of_ok {f : α → Effect σ ω ε β} (h : m s = (.ok a, s', out)) :
    (m >>= f) s = ((f a s').1, (f a s').2.1, out ++ (f a s').2.2) := by
  simp only [bind, h]

theorem bind_of_error {f : α → Effect σ ω ε β} (h : m s = (.error e, s', out)) :
    (m >>= f) s = (.error e, s', out) := by
  simp only [bind, h]

variable {c : Prop}

theorem ensure_of [Decidable c] (h : c) (e : ε) (s : σ) :
    (ensure c e : Effect σ ω ε Unit) s = (.ok (), s, []) := by
  rw [ensure, if_pos h]
  rfl

theorem ensure_of_not [Decidable c] (h : ¬c) (e : ε) (s : σ) :
    (ensure c e : Effect σ ω ε Unit) s = (.error e, s, []) := by
  rw [ensure, if_neg h]
  rfl

/-! ## Weakest preconditions -/

/-- `m` run from `s` ends in `post` if it returns and in `fail` if it throws. -/
def wp (m : Effect σ ω ε α) (s : σ) (post : α → σ → List ω → Prop)
    (fail : ε → σ → List ω → Prop) : Prop :=
  match m s with
  | (.ok a, s', out) => post a s' out
  | (.error e, s', out) => fail e s' out

section

variable {s : σ} {post : α → σ → List ω → Prop} {fail : ε → σ → List ω → Prop}

@[simp] theorem wp_pure (a : α) : wp (pure a) s post fail ↔ post a s [] := Iff.rfl

@[simp] theorem wp_throw (e : ε) : wp (throw e) s post fail ↔ fail e s [] := Iff.rfl

@[simp] theorem wp_get {post : σ → σ → List ω → Prop} : wp get s post fail ↔ post s s [] := Iff.rfl

@[simp] theorem wp_modify {post : Unit → σ → List ω → Prop} (f : σ → σ) :
    wp (modify f) s post fail ↔ post () (f s) [] := Iff.rfl

@[simp] theorem wp_emit {post : Unit → σ → List ω → Prop} (w : ω) :
    wp (emit w) s post fail ↔ post () s [w] := Iff.rfl

@[simp] theorem wp_lift (x : Except ε α) :
    wp (liftM x : Effect σ ω ε α) s post fail ↔
      match x with
      | .ok a => post a s []
      | .error e => fail e s [] := by
  cases x <;> exact Iff.rfl

@[simp] theorem wp_ensure {post : Unit → σ → List ω → Prop} [Decidable c] :
    wp (ensure c e) s post fail ↔ if c then post () s [] else fail e s [] := by
  unfold ensure
  split <;> exact Iff.rfl

@[simp] theorem wp_whenever {post : Unit → σ → List ω → Prop} [Decidable c] :
    wp (whenever c m) s post fail ↔ if c then wp m s post fail else post () s [] := by
  unfold whenever
  split <;> exact Iff.rfl

theorem wp_mapOutput {ω' : Type} {post : α → σ → List ω' → Prop} {fail : ε → σ → List ω' → Prop}
    (f : ω → ω') (m : Effect σ ω ε α) :
    wp (mapOutput f m) s post fail ↔
      wp m s (fun a s' out => post a s' (out.map f)) fun e s' out => fail e s' (out.map f) := by
  simp only [wp, mapOutput]
  rcases m s with ⟨a | a, s', out⟩ <;> exact Iff.rfl

theorem wp_bind {post : β → σ → List ω → Prop} (m : Effect σ ω ε α) (f : α → Effect σ ω ε β) :
    wp (m >>= f) s post fail ↔
      wp m s
        (fun a s' out => wp (f a) s' (fun b s'' out' => post b s'' (out ++ out'))
          fun e s'' out' => fail e s'' (out ++ out'))
        fail := by
  simp only [wp, bind]
  rcases m s with ⟨a | a, s', out⟩
  · exact Iff.rfl
  · dsimp only
    rcases f a s' with ⟨b | b, s'', out'⟩ <;> exact Iff.rfl

/-- Consequence. -/
theorem wp_mono (h : wp m s post fail) (hpost : ∀ a s' out, post a s' out → post' a s' out)
    (hfail : ∀ e s' out, fail e s' out → fail' e s' out) : wp m s post' fail' := by
  unfold wp at h ⊢
  split at h
  · exact hpost _ _ _ h
  · exact hfail _ _ _ h

theorem wp_true (m : Effect σ ω ε α) (s : σ) : wp m s (fun _ _ _ => True) fun _ _ _ => True := by
  unfold wp
  split <;> trivial

/-- What holds however a run ends holds of the run. -/
theorem of_wp {m : Effect σ ω ε α} {P : σ → List ω → Prop}
    (h : wp m s (fun _ s' out => P s' out) fun _ s' out => P s' out) : P (m s).2.1 (m s).2.2 := by
  unfold wp at h
  split at h
  · next hm => rwa [hm]
  · next hm => rwa [hm]

theorem wp_and (h : wp m s post fail) (h' : wp m s post' fail') :
    wp m s (fun a s' out => post a s' out ∧ post' a s' out)
      fun e s' out => fail e s' out ∧ fail' e s' out := by
  unfold wp at h h' ⊢
  split at h
  · exact ⟨h, by simp_all⟩
  · exact ⟨h, by simp_all⟩

end

/-! ## What a program leaves alone -/

/-- However it ends, the program leaves a view of the state as it was, and writes only what `P`
allows. -/
def Keeps {κ : Type} (view : σ → κ) (P : ω → Prop) (m : Effect σ ω ε α) : Prop :=
  ∀ s, view (m s).2.1 = view s ∧ ∀ w ∈ (m s).2.2, P w

namespace Keeps

variable {κ : Type} {view : σ → κ} {P : ω → Prop}

theorem pure (a : α) : Keeps view P (pure a : Effect σ ω ε α) := fun _ => ⟨rfl, nofun⟩

theorem get : Keeps view P (get : Effect σ ω ε σ) := fun _ => ⟨rfl, nofun⟩

theorem throw (e : ε) : Keeps view P (throw e : Effect σ ω ε α) := fun _ => ⟨rfl, nofun⟩

theorem lift (x : Except ε α) : Keeps view P (liftM x : Effect σ ω ε α) := fun _ => ⟨rfl, nofun⟩

theorem modify (h : ∀ s, view (f s) = view s) : Keeps view P (modify f : Effect σ ω ε Unit) :=
  fun s => ⟨h s, nofun⟩

theorem emit (h : P w) : Keeps view P (emit w : Effect σ ω ε Unit) := fun _ =>
  ⟨rfl, fun _ hw => List.mem_singleton.mp hw ▸ h⟩

theorem ensure (c : Prop) [Decidable c] (e : ε) :
    Keeps view P (ensure c e : Effect σ ω ε Unit) := by
  unfold Effect.ensure
  split
  · exact pure ()
  · exact throw e

theorem whenever [Decidable c] (h : Keeps view P m) : Keeps view P (whenever c m) := by
  unfold Effect.whenever
  split
  · exact h
  · exact pure ()

theorem bind {m : Effect σ ω ε α} {f : α → Effect σ ω ε β} (hm : Keeps view P m)
    (hf : ∀ a, Keeps view P (f a)) : Keeps view P (m >>= f) := by
  intro s
  have hs := hm s
  simp only [Bind.bind]
  cases hr : m s with
  | mk r rest =>
      rw [hr] at hs
      cases r with
      | error e => exact hs
      | ok a =>
          have ha := hf a rest.1
          refine ⟨ha.1.trans hs.1, fun w hw => ?_⟩
          exact (List.mem_append.mp hw).elim (hs.2 w) (ha.2 w)

theorem wp {m : Effect σ ω ε α} (h : Keeps view P m) (s : σ) :
    wp m s (fun _ s' out => view s' = view s ∧ ∀ w ∈ out, P w)
      fun _ s' out => view s' = view s ∧ ∀ w ∈ out, P w := by
  have hs := h s
  unfold Effect.wp
  split
  · next heq => rwa [heq] at hs
  · next heq => rwa [heq] at hs

end Keeps

end Effect

end StonePlus.Lib
