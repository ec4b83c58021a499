import Mathlib.Data.List.Basic

/-!
# StonePlus.Lib.Faulty

Programs whose operations may fail.

An operation that is tried may be refused by the state, or fail after it has got
somewhere: `partly n` is what it then leaves.  A schedule says of each operation in
turn whether it fails, and how far it gets.  `Meets` is a triple over all schedules,
or over the one in which nothing fails; `run_of_meets` turns it into a statement
about runs.
-/

namespace StonePlus.Lib

/-- Of each operation that is tried, whether it fails and how far it then gets. -/
abbrev Schedule := List (Option Nat)

/-- A program on the state `σ` that throws `ε` or returns `α`. -/
inductive Faulty (σ ε α : Type) where
  | finish (a : α)
  | throw (e : ε)
  | read (k : σ → Faulty σ ε α)
  | modify (f : σ → σ) (k : Faulty σ ε α)
  | step (op : σ → Except ε σ) (partly : Nat → σ → σ) (error : ε)
      (k : Except ε Unit → Faulty σ ε α)

namespace Faulty

variable {σ ε α β : Type}

protected def bind : Faulty σ ε α → (α → Faulty σ ε β) → Faulty σ ε β
  | .finish a, f => f a
  | .throw e, _ => .throw e
  | .read k, f => .read fun s => (k s).bind f
  | .modify g k, f => .modify g (k.bind f)
  | .step op partly error k, f => .step op partly error fun r => (k r).bind f

instance : Monad (Faulty σ ε) where
  pure := .finish
  bind := Faulty.bind

/-- The current state. -/
def get : Faulty σ ε σ := .read .finish

/-- A change that cannot fail. -/
def update (f : σ → σ) : Faulty σ ε Unit := .modify f (.finish ())

/-- An operation: it throws what the state refuses it with, or `error`. -/
def perform (op : σ → Except ε σ) (partly : Nat → σ → σ) (error : ε) : Faulty σ ε Unit :=
  .step op partly error fun
    | .ok () => .finish ()
    | .error e => .throw e

/-- An operation that changes nothing, but may fail. -/
def attempt (error : ε) : Faulty σ ε Unit := perform .ok (fun _ s => s) error

/-- Throw unless a condition holds. -/
def ensure (c : Prop) [Decidable c] (e : ε) : Faulty σ ε Unit :=
  if c then .finish () else .throw e

/-- A program with a handler for what it throws. -/
def orElse : Faulty σ ε α → (ε → Faulty σ ε α) → Faulty σ ε α
  | .finish a, _ => .finish a
  | .throw e, h => h e
  | .read k, h => .read fun s => (k s).orElse h
  | .modify g k, h => .modify g (k.orElse h)
  | .step op partly error k, h => .step op partly error fun r => (k r).orElse h

/-- The program, or nothing if it throws. -/
def ignoreErrors (p : Faulty σ ε Unit) : Faulty σ ε Unit := p.orElse fun _ => .finish ()

/-- One program for each element of a list. -/
def forEach : List β → (β → Faulty σ ε Unit) → Faulty σ ε Unit
  | [], _ => .finish ()
  | x :: xs, f => (f x).bind fun _ => forEach xs f

/-- How a program ends: its result, the state it leaves and the rest of the schedule.
What no schedule speaks of does not fail. -/
def run : Faulty σ ε α → σ → Schedule → Except ε α × σ × Schedule
  | .finish a, s, schedule => (.ok a, s, schedule)
  | .throw e, s, schedule => (.error e, s, schedule)
  | .read k, s, schedule => run (k s) s schedule
  | .modify f k, s, schedule => run k (f s) schedule
  | .step op partly error k, s, schedule =>
    match schedule.head?.join with
    | some n => run (k (.error error)) (partly n s) schedule.tail
    | none =>
      match op s with
      | .ok s' => run (k (.ok ())) s' schedule.tail
      | .error e => run (k (.error e)) s schedule.tail

/-- Whatever fails, the program returns in `post` or throws in `fail`; if `faulty` is
false, nothing fails. -/
def Meets (faulty : Bool) (post : α → σ → Prop) (fail : ε → σ → Prop) : Faulty σ ε α → σ → Prop
  | .finish a, s => post a s
  | .throw e, s => fail e s
  | .read k, s => Meets faulty post fail (k s) s
  | .modify f k, s => Meets faulty post fail k (f s)
  | .step op partly error k, s =>
    (match op s with
      | .ok s' => Meets faulty post fail (k (.ok ())) s'
      | .error e => Meets faulty post fail (k (.error e)) s) ∧
    (faulty = true → ∀ n, Meets faulty post fail (k (.error error)) (partly n s))

section Rules

variable {faulty : Bool} {post : α → σ → Prop} {fail : ε → σ → Prop} {s : σ}

@[simp] theorem meets_pure (a : α) :
    Meets faulty post fail (Pure.pure a : Faulty σ ε α) s ↔ post a s := Iff.rfl

@[simp] theorem meets_finish (a : α) : Meets faulty post fail (.finish a) s ↔ post a s := Iff.rfl

@[simp] theorem meets_throw (e : ε) : Meets faulty post fail (.throw e) s ↔ fail e s := Iff.rfl

@[simp] theorem meets_get {post : σ → σ → Prop} : Meets faulty post fail get s ↔ post s s := Iff.rfl

@[simp] theorem meets_update {post : Unit → σ → Prop} (f : σ → σ) :
    Meets faulty post fail (update f) s ↔ post () (f s) := Iff.rfl

theorem meets_step {op : σ → Except ε σ} {partly : Nat → σ → σ} {error : ε}
    {k : Except ε Unit → Faulty σ ε α} :
    Meets faulty post fail (.step op partly error k) s ↔
      (match op s with
        | .ok s' => Meets faulty post fail (k (.ok ())) s'
        | .error e => Meets faulty post fail (k (.error e)) s) ∧
      (faulty = true → ∀ n, Meets faulty post fail (k (.error error)) (partly n s)) := by
  rw [Meets]

@[simp] theorem meets_perform {post : Unit → σ → Prop} {op : σ → Except ε σ} {partly : Nat → σ → σ}
    {error : ε} :
    Meets faulty post fail (perform op partly error) s ↔
      (match op s with
        | .ok s' => post () s'
        | .error e => fail e s) ∧
      (faulty = true → ∀ n, fail error (partly n s)) := by
  rw [perform, meets_step]
  cases op s <;> exact Iff.rfl

@[simp] theorem meets_attempt {post : Unit → σ → Prop} :
    Meets faulty post fail (attempt error) s ↔ post () s ∧ (faulty = true → fail error s) := by
  simp [attempt]

@[simp] theorem meets_ensure {post : Unit → σ → Prop} {c : Prop} [Decidable c] :
    Meets faulty post fail (ensure c e) s ↔ if c then post () s else fail e s := by
  unfold ensure
  split <;> exact Iff.rfl

theorem meets_bind {post : β → σ → Prop} {p : Faulty σ ε α} {f : α → Faulty σ ε β} :
    Meets faulty post fail (p >>= f) s ↔
      Meets faulty (fun a s => Meets faulty post fail (f a) s) fail p s := by
  change Meets faulty post fail (p.bind f) s ↔ _
  induction p generalizing s with
  | finish a => exact Iff.rfl
  | throw e => exact Iff.rfl
  | read k ih => exact ih s
  | modify g k ih => exact ih
  | step op partly error k ih =>
      simp only [Faulty.bind, meets_step]
      cases op s <;> simp only [ih]

theorem meets_orElse {p : Faulty σ ε α} {h : ε → Faulty σ ε α} :
    Meets faulty post fail (p.orElse h) s ↔
      Meets faulty post (fun e s => Meets faulty post fail (h e) s) p s := by
  induction p generalizing s with
  | finish a => exact Iff.rfl
  | throw e => exact Iff.rfl
  | read k ih => exact ih s
  | modify g k ih => exact ih
  | step op partly error k ih =>
      simp only [orElse, meets_step]
      cases op s <;> simp only [ih]

@[simp] theorem meets_ignoreErrors {post : Unit → σ → Prop} {p : Faulty σ ε Unit} :
    Meets faulty post fail p.ignoreErrors s ↔ Meets faulty post (fun _ s => post () s) p s :=
  meets_orElse

/-- Consequence. -/
theorem Meets.mono (h : Meets faulty post fail p s) (hpost : ∀ a s, post a s → post' a s)
    (hfail : ∀ e s, fail e s → fail' e s) : Meets faulty post' fail' p s := by
  induction p generalizing s with
  | finish a => exact hpost a s h
  | throw e => exact hfail e s h
  | read k ih => exact ih s h
  | modify g k ih => exact ih h
  | step op partly error k ih =>
      rw [meets_step] at h ⊢
      obtain ⟨hop, hfault⟩ := h
      refine ⟨?_, fun hfaulty n => ih _ (hfault hfaulty n)⟩
      cases hs : op s with
      | ok s' =>
          rw [hs] at hop
          exact ih _ hop
      | error e =>
          rw [hs] at hop
          exact ih _ hop

/-- A loop keeps what each of its passes keeps. -/
theorem meets_forEach {xs : List β} {f : β → Faulty σ ε Unit} (inv : List β → σ → Prop)
    (hstep : ∀ done x rest s, xs = done ++ x :: rest → inv done s →
      Meets faulty (fun _ s => inv (done ++ [x]) s) fail (f x) s) (h : inv [] s) :
    Meets faulty (fun _ s => inv xs s) fail (forEach xs f) s := by
  -- the loop is followed from any point of the list on
  suffices hsuffix : ∀ rest done s, xs = done ++ rest → inv done s →
      Meets faulty (fun _ s => inv xs s) fail (forEach rest f) s from hsuffix xs [] s rfl h
  intro rest
  induction rest with
  | nil =>
      intro done s hxs hinv
      rw [List.append_nil] at hxs
      exact hxs ▸ hinv
  | cons x rest ih =>
      intro done s hxs hinv
      refine meets_bind.mpr ((hstep done x rest s hxs hinv).mono ?_ fun _ _ h => h)
      exact fun _ s' hinv' => ih (done ++ [x]) s' (by simpa using hxs) hinv'

end Rules

/-- A triple holds of every run; without faults, of the run in which nothing fails. -/
theorem run_of_meets (h : Meets faulty post fail p s) (hschedule : faulty = false → schedule = []) :
    (∀ a, (run p s schedule).1 = .ok a → post a (run p s schedule).2.1) ∧
      (∀ e, (run p s schedule).1 = .error e → fail e (run p s schedule).2.1) := by
  induction p generalizing s schedule with
  | finish a =>
      refine ⟨fun b hb => ?_, fun e he => by cases he⟩
      injection hb with hb
      exact hb ▸ h
  | throw e =>
      refine ⟨fun b hb => (by cases hb), fun e' he => ?_⟩
      injection he with he
      exact he ▸ h
  | read k ih => exact ih s h hschedule
  | modify f k ih => exact ih h hschedule
  | step op partly error k ih =>
      rw [meets_step] at h
      obtain ⟨hop, hfault⟩ := h
      have htail : faulty = false → schedule.tail = [] := by
        intro hfaulty
        rw [hschedule hfaulty]
        rfl
      simp only [run]
      cases hhead : schedule.head?.join with
      | some n =>
          have hfaulty : faulty = true := by
            cases faulty with
            | true => rfl
            | false => simp [hschedule rfl] at hhead
          exact ih _ (hfault hfaulty n) htail
      | none =>
          cases hs : op s with
          | ok s' =>
              rw [hs] at hop
              exact ih _ hop htail
          | error e =>
              rw [hs] at hop
              exact ih _ hop htail

end Faulty

end StonePlus.Lib
