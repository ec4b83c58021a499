import Mathlib.Data.List.Basic

/-!
# StonePlus.Lib.Framing

Incremental readers of a framed stream.

A `Framing` says what the front of a buffer holds: nothing complete yet, a
frame and its size, or an error; more input never changes a decided answer.
A `Consumer` handles frames one at a time, writes output, and may stop.
`Intake.feed` buffers a chunk and hands over every complete frame.  The two
results are that the chunks' boundaries do not matter (`feedAll_eq_feed`) and
that an invariant of the consumer holds after any input (`drain_spec`).
-/

namespace StonePlus.Lib

/-- What the front of a buffer holds. -/
inductive Front (φ ε : Type)
  | incomplete
  | frame (value : φ) (size : Nat)
  | malformed (error : ε)

/-- A way to cut a stream of `β` into frames. -/
structure Framing (β φ ε : Type) where
  front : List β → Front φ ε
  size_pos : ∀ {buffer f n}, front buffer = .frame f n → 0 < n
  size_le : ∀ {buffer f n}, front buffer = .frame f n → n ≤ buffer.length
  frame_append : ∀ {buffer f n}, front buffer = .frame f n →
    ∀ more, front (buffer ++ more) = .frame f n
  malformed_append : ∀ {buffer e}, front buffer = .malformed e →
    ∀ more, front (buffer ++ more) = .malformed e

/-- What the consumer answers to a frame: its next state, its output, and
whether it goes on reading. -/
structure Answer (κ ω : Type) where
  state : κ
  output : List ω
  continues : Bool

/-- A consumer of frames: an accepted frame may still stop it, a malformed
front always does. -/
structure Consumer (κ φ ε ω : Type) where
  accept : κ → φ → Answer κ ω
  reject : κ → ε → κ × List ω

/-- A reader between two chunks: the bytes of the incomplete frame, the
consumer's state, and whether reading has stopped. -/
@[ext] structure Intake (β κ : Type) where
  buffer : List β
  state : κ
  closed : Bool

section

variable {β φ ε κ ω : Type} (F : Framing β φ ε) (C : Consumer κ φ ε ω)

theorem Framing.drop_lt {F : Framing β φ ε} (h : F.front buffer = .frame f n) :
    (buffer.drop n).length < buffer.length := by
  have := F.size_pos h
  have := F.size_le h
  rw [List.length_drop]
  omega

/-- Induction over a buffer, frame by frame. -/
@[elab_as_elim]
theorem Framing.induction {motive : List β → Prop}
    (incomplete : ∀ buffer, F.front buffer = .incomplete → motive buffer)
    (malformed : ∀ buffer e, F.front buffer = .malformed e → motive buffer)
    (frame : ∀ buffer f n, F.front buffer = .frame f n → motive (buffer.drop n) → motive buffer)
    (buffer : List β) : motive buffer :=
  match h : F.front buffer with
  | .incomplete => incomplete buffer h
  | .malformed e => malformed buffer e h
  | .frame f n =>
      frame buffer f n h (Framing.induction incomplete malformed frame (buffer.drop n))
termination_by buffer.length
decreasing_by exact Framing.drop_lt h

/-- Hand over every complete frame of the buffer. -/
def Intake.drain (state : κ) (buffer : List β) : List ω × Intake β κ :=
  match _h : F.front buffer with
  | .incomplete => ([], ⟨buffer, state, false⟩)
  | .malformed e => ((C.reject state e).2, ⟨[], (C.reject state e).1, true⟩)
  | .frame f n =>
    let answer := C.accept state f
    if answer.continues then
      let rest := Intake.drain answer.state (buffer.drop n)
      (answer.output ++ rest.1, rest.2)
    else (answer.output, ⟨[], answer.state, true⟩)
termination_by buffer.length
decreasing_by exact Framing.drop_lt _h

/-- Take a chunk in. -/
def Intake.feed (i : Intake β κ) (chunk : List β) : List ω × Intake β κ :=
  if i.closed then ([], i) else Intake.drain F C i.state (i.buffer ++ chunk)

/-- Take chunks in, one after another. -/
def Intake.feedAll (i : Intake β κ) : List (List β) → List ω × Intake β κ
  | [] => ([], i)
  | chunk :: chunks =>
    let first := i.feed F C chunk
    let rest := Intake.feedAll first.2 chunks
    (first.1 ++ rest.1, rest.2)

/-- The frames a buffer holds before its first incomplete or malformed one. -/
def Framing.frames (buffer : List β) : List φ :=
  match _h : F.front buffer with
  | .frame f n => f :: Framing.frames (buffer.drop n)
  | _ => []
termination_by buffer.length
decreasing_by exact Framing.drop_lt _h

variable {F C}

/-! ## Equations -/

variable {buffer : List β} {state : κ}

theorem Intake.drain_incomplete (h : F.front buffer = .incomplete) :
    Intake.drain F C state buffer = ([], ⟨buffer, state, false⟩) := by
  rw [Intake.drain]
  split <;> simp_all

theorem Intake.drain_malformed (h : F.front buffer = .malformed e) : Intake.drain F C state buffer =
      ((C.reject state e).2, ⟨[], (C.reject state e).1, true⟩) := by
  rw [Intake.drain]
  split <;> simp_all

theorem Intake.drain_frame (h : F.front buffer = .frame f n) : Intake.drain F C state buffer =
      if (C.accept state f).continues then
        ((C.accept state f).output ++
            (Intake.drain F C (C.accept state f).state (buffer.drop n)).1,
          (Intake.drain F C (C.accept state f).state (buffer.drop n)).2)
      else ((C.accept state f).output, ⟨[], (C.accept state f).state, true⟩) := by
  rw [Intake.drain]
  split <;> simp_all

theorem Framing.frames_frame (h : F.front buffer = .frame f n) :
    F.frames buffer = f :: F.frames (buffer.drop n) := by
  rw [Framing.frames]
  split <;> simp_all

/-! ## Chunk boundaries -/

/-- Draining a longer buffer is draining its front part and then feeding the rest. -/
theorem Intake.drain_append (state : κ) (buffer more : List β) :
    Intake.drain F C state (buffer ++ more) =
      ((Intake.drain F C state buffer).1 ++ ((Intake.drain F C state buffer).2.feed F C more).1,
        ((Intake.drain F C state buffer).2.feed F C more).2) := by
  induction buffer using F.induction generalizing state with
  | incomplete buffer h => simp [Intake.drain_incomplete h, Intake.feed]
  | malformed buffer e h =>
      rw [Intake.drain_malformed h, Intake.drain_malformed (F.malformed_append h more)]
      simp [Intake.feed]
  | frame buffer f n h ih =>
      rw [Intake.drain_frame h, Intake.drain_frame (F.frame_append h more),
        List.drop_append_of_le_length (F.size_le h)]
      cases (C.accept state f).continues with
      | false => simp [Intake.feed]
      | true => simp [ih (C.accept state f).state, List.append_assoc]

/-- A reader that has nothing to hand over. -/
def Intake.Settled (F : Framing β φ ε) (i : Intake β κ) : Prop :=
  i.closed = false → F.front i.buffer = .incomplete

variable {i : Intake β κ}

theorem Intake.feed_nil (h : i.Settled F) : i.feed F C [] = ([], i) := by
  cases hclosed : i.closed with
  | true => simp [Intake.feed, hclosed]
  | false =>
      rw [Intake.feed, if_neg (by simp [hclosed]), List.append_nil,
        Intake.drain_incomplete (h hclosed), ← hclosed]

theorem Intake.settled_drain (state : κ) (buffer : List β) :
    (Intake.drain F C state buffer).2.Settled F := by
  induction buffer using F.induction generalizing state with
  | incomplete buffer h =>
      rw [Intake.drain_incomplete h]
      exact fun _ => h
  | malformed buffer e h =>
      rw [Intake.drain_malformed h]
      exact fun hopen => by cases hopen
  | frame buffer f n h ih =>
      rw [Intake.drain_frame h]
      split
      · exact ih _
      · exact fun hopen => by cases hopen

theorem Intake.settled_feed (h : i.Settled F) (chunk : List β) :
    (i.feed F C chunk).2.Settled F := by
  unfold Intake.feed
  split
  · exact h
  · exact Intake.settled_drain _ _

/-- Feeding a concatenation is feeding its parts in turn. -/
theorem Intake.feed_append (i : Intake β κ) (chunk more : List β) :
    i.feed F C (chunk ++ more) =
      ((i.feed F C chunk).1 ++ ((i.feed F C chunk).2.feed F C more).1,
        ((i.feed F C chunk).2.feed F C more).2) := by
  cases hclosed : i.closed with
  | true => simp [Intake.feed, hclosed]
  | false =>
      have hopen : ¬i.closed = true := by simp [hclosed]
      have hchunk : i.feed F C chunk = Intake.drain F C i.state (i.buffer ++ chunk) := by
        rw [Intake.feed, if_neg hopen]
      rw [Intake.feed, if_neg hopen, ← List.append_assoc, Intake.drain_append, ← hchunk]

/-- The boundaries between chunks do not matter. -/
theorem Intake.feedAll_eq_feed (h : i.Settled F) (chunks : List (List β)) :
    i.feedAll F C chunks = i.feed F C chunks.flatten := by
  induction chunks generalizing i with
  | nil => exact (Intake.feed_nil h).symm
  | cons chunk chunks ih =>
      rw [Intake.feedAll, List.flatten_cons, Intake.feed_append, ih (Intake.settled_feed h chunk)]

/-! ## Invariants -/

/-- The invariant rule.  `inv done out state` speaks about the frames handled
and the output written so far; `stop done out state` about the end of a reader
that has stopped.  If every accepted frame keeps `inv` or establishes `stop`,
and every malformed front establishes `stop`, then after any buffer one of the
two holds, for the frames of the buffer or an initial part of them. -/
theorem Intake.drain_spec (inv stop : List φ → List ω → κ → Prop)
    (haccept : ∀ done out state f, inv done out state →
      if (C.accept state f).continues then
        inv (done ++ [f]) (out ++ (C.accept state f).output) (C.accept state f).state
      else stop done (out ++ (C.accept state f).output) (C.accept state f).state)
    (hreject : ∀ done out state e, inv done out state →
      stop done (out ++ (C.reject state e).2) (C.reject state e).1) {done : List φ} {out : List ω}
    (h : inv done out state) (buffer : List β) : if (Intake.drain F C state buffer).2.closed then
      ∃ handled, handled <+: F.frames buffer ∧
        stop (done ++ handled) (out ++ (Intake.drain F C state buffer).1)
          (Intake.drain F C state buffer).2.state
    else inv (done ++ F.frames buffer) (out ++ (Intake.drain F C state buffer).1)
      (Intake.drain F C state buffer).2.state := by
  induction buffer using F.induction generalizing done out state with
  | incomplete buffer hfront =>
      have hframes : F.frames buffer = [] := by
        rw [Framing.frames]
        split <;> simp_all
      simpa [Intake.drain_incomplete hfront, hframes] using h
  | malformed buffer e hfront =>
      rw [Intake.drain_malformed hfront, if_pos rfl]
      exact ⟨[], List.nil_prefix, by simpa using hreject done out state e h⟩
  | frame buffer f n hfront ih =>
      have hstep := haccept done out state f h
      rw [Intake.drain_frame hfront, Framing.frames_frame hfront]
      cases hgo : (C.accept state f).continues with
      | false =>
          rw [hgo, if_neg (by simp)] at hstep
          simp only [Bool.false_eq_true, ↓reduceIte]
          exact ⟨[], List.nil_prefix, by simpa using hstep⟩
      | true =>
          rw [hgo, if_pos rfl] at hstep
          have hrest := ih hstep
          simp only [↓reduceIte]
          split at hrest
          · next hclosed =>
              rw [if_pos hclosed]
              obtain ⟨handled, hfront, hstop⟩ := hrest
              refine ⟨f :: handled, (List.prefix_cons_inj f).mpr hfront, ?_⟩
              simpa [List.append_assoc] using hstop
          · next hopen =>
              rw [if_neg hopen]
              simpa [List.append_assoc] using hrest

end

end StonePlus.Lib
