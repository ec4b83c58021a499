import Mathlib.Data.List.Basic

/-!
# StonePlus.Lib.Chunks

Readers that take their input in pieces.

A reader is a state and a function that feeds it a piece of the input and
returns its output.  `Additive` says that feeding a concatenation is feeding
its parts; then the pieces a loop cuts a text into (`slices`), and the chunks
the text arrives in (`chunks`), do not matter.
-/

namespace StonePlus.Lib

variable {σ α ω : Type}

/-- Feeding a concatenation is feeding its parts in turn. -/
def Additive (feed : σ → List α → List ω × σ) : Prop :=
  ∀ s a b, b ≠ [] →
    feed s (a ++ b) = ((feed s a).1 ++ (feed (feed s a).2 b).1, (feed (feed s a).2 b).2)

/-- Feed a text in slices, of a size that depends on the state, until the
reader stops. -/
def slices (feed : σ → List α → List ω × σ) (stopped : σ → Bool) (size : σ → Nat) (s : σ)
    (text : List α) : List ω × σ :=
  if text = [] ∨ stopped s then ([], s)
  else
    let first := feed s (text.take (max 1 (size s)))
    let rest := slices feed stopped size first.2 (text.drop (max 1 (size s)))
    (first.1 ++ rest.1, rest.2)
termination_by text.length
decreasing_by
  have hne : text ≠ [] := fun h => by simp_all
  have := List.length_pos_iff.mpr hne
  rw [List.length_drop]
  omega

/-- Take chunks in, one after another. -/
def chunks (push : σ → List α → List ω × σ) (s : σ) : List (List α) → List ω × σ
  | [] => ([], s)
  | c :: cs =>
    let first := push s c
    let rest := chunks push first.2 cs
    (first.1 ++ rest.1, rest.2)

/-- The size of the slices does not matter. -/
theorem slices_eq_feed {feed : σ → List α → List ω × σ} {stopped : σ → Bool} (size : σ → Nat)
    (hfeed : Additive feed) (hstopped : ∀ s text, stopped s = true → feed s text = ([], s)) (s : σ)
    {text : List α} (htext : text ≠ []) : slices feed stopped size s text = feed s text := by
  fun_induction slices feed stopped size s text with
  | case1 s text h =>
      rcases h with h | h
      · exact absurd h htext
      · exact (hstopped s text h).symm
  | case2 s text h first rest ih =>
      by_cases hrest : text.drop (max 1 (size s)) = []
      · have hwhole : text.take (max 1 (size s)) = text := by
          have := List.take_append_drop (max 1 (size s)) text
          rwa [hrest, List.append_nil] at this
        have hnone : rest = ([], first.2) := by
          show slices feed stopped size first.2 (text.drop (max 1 (size s))) = ([], first.2)
          rw [hrest, slices, if_pos (Or.inl rfl)]
        rw [hnone, List.append_nil]
        show feed s (text.take (max 1 (size s))) = feed s text
        rw [hwhole]
      · have hrest' : rest = feed first.2 (text.drop (max 1 (size s))) := ih hrest
        have hsplit := hfeed s (text.take (max 1 (size s))) _ hrest
        rw [List.take_append_drop] at hsplit
        rw [hrest', hsplit]

/-- A push that ignores empty chunks and else is an additive feed reads the
concatenation of the chunks. -/
theorem chunks_eq_push {push feed : σ → List α → List ω × σ} (hfeed : Additive feed)
    (hpush : ∀ s text, text ≠ [] → push s text = feed s text)
    (hnil : ∀ s, push s [] = ([], s)) (s : σ) (cs : List (List α)) :
    chunks push s cs = push s cs.flatten := by
  induction cs generalizing s with
  | nil => exact (hnil s).symm
  | cons c cs ih =>
      rw [chunks, ih, List.flatten_cons]
      by_cases hc : c = []
      · simp [hc, hnil]
      · by_cases hrest : cs.flatten = []
        · simp [hrest, hnil]
        · have happend : c ++ cs.flatten ≠ [] := by simp [hc]
          rw [hpush _ _ happend, hfeed _ _ _ hrest, hpush _ _ hc, hpush _ _ hrest]

end StonePlus.Lib
