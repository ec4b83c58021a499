import Mathlib.Data.List.Basic

/-!
# StonePlus.Lib.Crash

Programs over durable state that may be cut short.

A program reads the state and performs operations; each operation is atomic
and durable, and may fail.  The process can die between any two completed
operations: `stops` lists what it leaves behind.  `Meets` is a triple with two
postconditions, one for the end of the program and one for every point at
which it can die.  `Recovered` runs a recovery until it is not cut short, and
`recovered_of_meets` reduces it to one triple.
-/

namespace StonePlus.Lib

/-- A program that performs operations `ω` on the state `σ`, throws `ε` or
returns `α`. -/
inductive Durable (ω σ ε α : Type) where
  | finish (a : α)
  | throw (e : ε)
  | read (k : σ → Durable ω σ ε α)
  | step (op : ω) (k : Except ε Unit → Durable ω σ ε α)

namespace Durable

variable {ω σ ε α β : Type}

protected def bind : Durable ω σ ε α → (α → Durable ω σ ε β) → Durable ω σ ε β
  | .finish a, f => f a
  | .throw e, _ => .throw e
  | .read k, f => .read fun s => (k s).bind f
  | .step op k, f => .step op fun r => (k r).bind f

instance : Monad (Durable ω σ ε) where
  pure := .finish
  bind := Durable.bind

/-- The current state. -/
def get : Durable ω σ ε σ := .read .finish

/-- Perform one operation; if it fails, throw its error. -/
def perform (op : ω) : Durable ω σ ε Unit :=
  .step op fun
    | .ok () => .finish ()
    | .error e => .throw e

/-- Throw unless a condition holds. -/
def ensure (c : Prop) [Decidable c] (e : ε) : Durable ω σ ε Unit :=
  if c then .finish () else .throw e

/-- A program that is run only under a condition. -/
def whenever (c : Bool) (p : Durable ω σ ε Unit) : Durable ω σ ε Unit :=
  if c then p else .finish ()

/-- A program with a handler for what it throws. -/
def orElse : Durable ω σ ε α → (ε → Durable ω σ ε α) → Durable ω σ ε α
  | .finish a, _ => .finish a
  | .throw e, h => h e
  | .read k, h => .read fun s => (k s).orElse h
  | .step op k, h => .step op fun r => (k r).orElse h

/-- The program, or nothing if it throws. -/
def ignoreErrors (p : Durable ω σ ε Unit) : Durable ω σ ε Unit := p.orElse fun _ => .finish ()

variable (apply : ω → σ → Except ε σ)

/-- How a program ends that is not cut short: its result, the operations it
completed, and the state it leaves. -/
def run : Durable ω σ ε α → σ → Except ε α × List ω × σ
  | .finish a, s => (.ok a, [], s)
  | .throw e, s => (.error e, [], s)
  | .read k, s => run (k s) s
  | .step op k, s =>
    match apply op s with
    | .ok s' =>
      let (r, ops, s'') := run (k (.ok ())) s'
      (r, op :: ops, s'')
    | .error e => run (k (.error e)) s

/-- Where a program can be cut short: the operations it has completed, and the
state it leaves. -/
def stops : Durable ω σ ε α → σ → List (List ω × σ)
  | .finish _, s => [([], s)]
  | .throw _, s => [([], s)]
  | .read k, s => stops (k s) s
  | .step op k, s =>
    ([], s) ::
      match apply op s with
      | .ok s' => (stops (k (.ok ())) s').map fun (ops, s'') => (op :: ops, s'')
      | .error e => stops (k (.error e)) s

/-- After the operations `done`, the program ends in `post`, and wherever it is
cut short it leaves `crash`. -/
def Meets (post : Except ε α → List ω → σ → Prop) (crash : List ω → σ → Prop) :
    Durable ω σ ε α → List ω → σ → Prop
  | .finish a, done, s => crash done s ∧ post (.ok a) done s
  | .throw e, done, s => crash done s ∧ post (.error e) done s
  | .read k, done, s => Meets post crash (k s) done s
  | .step op k, done, s =>
    crash done s ∧
      match apply op s with
      | .ok s' => Meets post crash (k (.ok ())) (done ++ [op]) s'
      | .error e => Meets post crash (k (.error e)) done s

variable {apply} {post post' : Except ε α → List ω → σ → Prop} {crash crash' : List ω → σ → Prop}
  {done : List ω} {s : σ}

@[simp] theorem meets_pure :
    Meets apply post crash (Pure.pure a) done s ↔ crash done s ∧ post (.ok a) done s := Iff.rfl

@[simp] theorem meets_throw :
    Meets apply post crash (.throw e) done s ↔ crash done s ∧ post (.error e) done s := Iff.rfl

theorem meets_step {op : ω} {k : Except ε Unit → Durable ω σ ε α} :
    Meets apply post crash (.step op k) done s ↔
      crash done s ∧
        match apply op s with
        | .ok s' => Meets apply post crash (k (.ok ())) (done ++ [op]) s'
        | .error e => Meets apply post crash (k (.error e)) done s := by
  rw [Meets]

/-- A program is first cut short where it starts. -/
theorem Meets.here (h : Meets apply post crash p done s) : crash done s := by
  induction p generalizing done s with
  | finish a => exact h.1
  | throw e => exact h.1
  | read k ih => exact ih s h
  | step op k ih => exact (meets_step.mp h).1

theorem meets_bind {p : Durable ω σ ε β} {f : β → Durable ω σ ε α} :
    Meets apply post crash (p >>= f) done s ↔
      Meets apply (fun r done s => match r with
        | .ok a => Meets apply post crash (f a) done s
        | .error e => post (.error e) done s) crash p done s := by
  change Meets apply post crash (p.bind f) done s ↔ _
  induction p generalizing done s with
  | finish a => exact ⟨fun h => ⟨h.here, h⟩, fun h => h.2⟩
  | throw e => exact Iff.rfl
  | read k ih => exact ih s
  | step op k ih =>
      simp only [Durable.bind, Meets]
      cases apply op s with
      | ok s' => exact and_congr_right fun _ => ih (.ok ())
      | error e => exact and_congr_right fun _ => ih (.error e)

theorem meets_orElse {p : Durable ω σ ε α} {h : ε → Durable ω σ ε α} :
    Meets apply post crash (p.orElse h) done s ↔
      Meets apply (fun r done s => match r with
        | .ok a => post (.ok a) done s
        | .error e => Meets apply post crash (h e) done s) crash p done s := by
  induction p generalizing done s with
  | finish a => exact Iff.rfl
  | throw e => exact ⟨fun h => ⟨h.here, h⟩, fun h => h.2⟩
  | read k ih => exact ih s
  | step op k ih =>
      simp only [orElse, Meets]
      cases apply op s with
      | ok s' => exact and_congr_right fun _ => ih (.ok ())
      | error e => exact and_congr_right fun _ => ih (.error e)

/-- A read is no step at which the program can be cut short. -/
theorem meets_get_bind :
    Meets apply post crash (get >>= f) done s ↔ Meets apply post crash (f s) done s := Iff.rfl

/-- An operation that succeeds. -/
theorem meets_perform {post : Except ε Unit → List ω → σ → Prop} {op : ω} {s' : σ}
    (h : apply op s = .ok s') :
    Meets apply post crash (perform op) done s ↔
      crash done s ∧ crash (done ++ [op]) s' ∧ post (.ok ()) (done ++ [op]) s' := by
  simp only [perform, Meets, h]

theorem meets_ensure {post : Except ε Unit → List ω → σ → Prop} {c : Prop} [Decidable c] (h : c) :
    Meets apply post crash (ensure c e) done s ↔ crash done s ∧ post (.ok ()) done s := by
  rw [ensure, if_pos h]
  rfl

@[simp] theorem meets_whenever_true {post : Except ε Unit → List ω → σ → Prop} :
    Meets apply post crash (whenever true p) done s ↔ Meets apply post crash p done s := Iff.rfl

@[simp] theorem meets_whenever_false {post : Except ε Unit → List ω → σ → Prop} :
    Meets apply post crash (whenever false p) done s ↔ crash done s ∧ post (.ok ()) done s :=
  Iff.rfl

theorem Meets.mono (h : Meets apply post crash p done s)
    (hpost : ∀ r done s, post r done s → post' r done s)
    (hcrash : ∀ done s, crash done s → crash' done s) : Meets apply post' crash' p done s := by
  induction p generalizing done s with
  | finish a => exact ⟨hcrash _ _ h.1, hpost _ _ _ h.2⟩
  | throw e => exact ⟨hcrash _ _ h.1, hpost _ _ _ h.2⟩
  | read k ih => exact ih s h
  | step op k ih =>
      obtain ⟨hhere, hrest⟩ := meets_step.mp h
      refine meets_step.mpr ⟨hcrash _ _ hhere, ?_⟩
      cases hop : apply op s with
      | ok s' =>
          rw [hop] at hrest
          exact ih _ hrest
      | error e =>
          rw [hop] at hrest
          exact ih _ hrest

/-- What a triple says of the end of the program. -/
theorem Meets.run (h : Meets apply post crash p done s) :
    post (p.run apply s).1 (done ++ (p.run apply s).2.1) (p.run apply s).2.2 := by
  induction p generalizing done s with
  | finish a => simpa [Durable.run] using h.2
  | throw e => simpa [Durable.run] using h.2
  | read k ih => exact ih s h
  | step op k ih =>
      have hrest := (meets_step.mp h).2
      rw [Durable.run]
      cases hop : apply op s with
      | ok s' =>
          rw [hop] at hrest
          simpa using ih _ hrest
      | error e =>
          rw [hop] at hrest
          exact ih _ hrest

/-- What a triple says of every point at which the program can be cut short. -/
theorem Meets.stops (h : Meets apply post crash p done s) (hstop : (ops, s') ∈ p.stops apply s) :
    crash (done ++ ops) s' := by
  induction p generalizing done s ops with
  | finish a =>
      simp only [Durable.stops, List.mem_singleton, Prod.mk.injEq] at hstop
      rw [hstop.1, hstop.2, List.append_nil]
      exact h.1
  | throw e =>
      simp only [Durable.stops, List.mem_singleton, Prod.mk.injEq] at hstop
      rw [hstop.1, hstop.2, List.append_nil]
      exact h.1
  | read k ih => exact ih s h hstop
  | step op k ih =>
      obtain ⟨hhere, hrest⟩ := meets_step.mp h
      rw [Durable.stops] at hstop
      rcases List.mem_cons.mp hstop with hfirst | hlater
      · cases hfirst
        rw [List.append_nil]
        exact hhere
      · cases hop : apply op s with
        | ok s₁ =>
            rw [hop] at hrest hlater
            obtain ⟨⟨ops', s₂⟩, hmem, heq⟩ := List.mem_map.mp hlater
            cases heq
            simpa using ih _ hrest hmem
        | error e =>
            rw [hop] at hrest hlater
            exact ih _ hrest hlater

/-! ## Recovery -/

variable (apply) in
/-- A recovery is cut short any number of times and then runs to its end. -/
inductive Recovered (recover : Durable ω σ ε β) :
    List ω → σ → Except ε β → List ω → σ → Prop where
  | finished (done : List ω) (s : σ) :
      Recovered recover done s (recover.run apply s).1 (done ++ (recover.run apply s).2.1)
        (recover.run apply s).2.2
  | interrupted {done ops : List ω} {s s' : σ} {r : Except ε β} {done' : List ω} {s'' : σ} :
      (ops, s') ∈ recover.stops apply s → Recovered recover (done ++ ops) s' r done' s'' →
      Recovered recover done s r done' s''

/-- If a recovery starts well from everything it leaves behind when it is cut
short, then it ends well however often that happens. -/
theorem recovered_of_meets
    (hmeets : ∀ done s, crash done s → Meets apply post crash recover done s)
    (h : Recovered apply recover done s r done' s') (hs : crash done s) : post r done' s' := by
  induction h with
  | finished done s => exact (hmeets done s hs).run
  | interrupted hstop _ ih => exact ih ((hmeets _ _ hs).stops hstop)

end Durable

end StonePlus.Lib
