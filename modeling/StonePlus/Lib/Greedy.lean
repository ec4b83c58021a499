import Mathlib.Algebra.BigOperators.Group.Finset.Piecewise
import Mathlib.Algebra.BigOperators.Ring.Finset
import Mathlib.Algebra.Order.BigOperators.Group.Finset
import Mathlib.Algebra.Order.Field.Rat
import Mathlib.Data.Nat.Count
import Mathlib.Tactic.Linarith
import Mathlib.Tactic.Ring

/-!
# StonePlus.Lib.Greedy

Weighted turns, taken greedily.

In each round every competitor's score grows by its weight, and one whose score is then
greatest has its turn and pays the total weight.  However ties are broken, each competitor
has as many turns in a window of the total weight as it weighs, and the scores are back
at zero at its end (`Rounds.count_eq`, `Rounds.score_eq_zero`).
-/

namespace StonePlus.Lib

variable {ι : Type} [DecidableEq ι]

/-- One round: `j` has its turn, and the scores go from `c` to `c'`. -/
structure Round (S : Finset ι) (w : ι → ℕ) (c c' : ι → ℚ) (j : ι) : Prop where
  mem : j ∈ S
  greatest : ∀ i ∈ S, c i + w i ≤ c j + w j
  score : ∀ i ∈ S, c' i = c i + w i - if i = j then ((∑ k ∈ S, w k : ℕ) : ℚ) else 0

/-- Rounds without end, from scores of zero. -/
structure Rounds (S : Finset ι) (w : ι → ℕ) (c : ℕ → ι → ℚ) (turn : ℕ → ι) : Prop where
  start : ∀ i ∈ S, c 0 i = 0
  round : ∀ t, Round S w (c t) (c (t + 1)) (turn t)

namespace Rounds

variable {S : Finset ι} {w : ι → ℕ} {c : ℕ → ι → ℚ} {turn : ℕ → ι}

/-- A score tells how far its competitor's turns lag behind its share. -/
theorem score_eq (h : Rounds S w c turn) (t : ℕ) (hi : i ∈ S) :
    c t i = t * w i - (∑ k ∈ S, w k : ℕ) * Nat.count (fun k => turn k = i) t := by
  induction t with
  | zero => simp [h.start i hi]
  | succ t ih =>
      rw [(h.round t).score i hi, ih, Nat.count_succ]
      by_cases hturn : turn t = i
      · simp only [hturn, if_true]
        push_cast
        ring
      · rw [if_neg (Ne.symm hturn), if_neg hturn]
        push_cast
        ring

/-- Every turn is someone's. -/
theorem sum_count (h : Rounds S w c turn) (t : ℕ) :
    ∑ i ∈ S, Nat.count (fun k => turn k = i) t = t := by
  induction t with
  | zero => simp
  | succ t ih =>
      simp only [Nat.count_succ, Finset.sum_add_distrib, ih]
      rw [Finset.sum_ite_eq, if_pos (h.round t).mem]

theorem sum_score (h : Rounds S w c turn) (t : ℕ) : ∑ i ∈ S, c t i = 0 := by
  rw [Finset.sum_congr rfl fun i hi => h.score_eq t hi, Finset.sum_sub_distrib,
    ← Finset.mul_sum, ← Finset.mul_sum, ← Nat.cast_sum, ← Nat.cast_sum, h.sum_count]
  ring

/-- The greatest score is positive when a turn is given, since the scores then sum to the
total weight. -/
theorem turn_pos (h : Rounds S w c turn) (hw : 0 < ∑ k ∈ S, w k) (t : ℕ) :
    0 < c t (turn t) + w (turn t) := by
  by_contra! hle
  have hsum : ∑ i ∈ S, (c t i + w i) ≤ 0 :=
    Finset.sum_nonpos fun i hi => ((h.round t).greatest i hi).trans hle
  rw [Finset.sum_add_distrib, h.sum_score, zero_add, ← Nat.cast_sum] at hsum
  have : (0 : ℚ) < (∑ k ∈ S, w k : ℕ) := by exact_mod_cast hw
  linarith

/-- No score falls below minus the total weight. -/
theorem neg_total_lt_score (h : Rounds S w c turn) (hw : 0 < ∑ k ∈ S, w k) (t : ℕ) (hi : i ∈ S) :
    -((∑ k ∈ S, w k : ℕ) : ℚ) < c t i := by
  have htotal : (0 : ℚ) < (∑ k ∈ S, w k : ℕ) := by exact_mod_cast hw
  induction t with
  | zero =>
      rw [h.start i hi]
      linarith
  | succ t ih =>
      rw [(h.round t).score i hi]
      have hweight : (0 : ℚ) ≤ w i := Nat.cast_nonneg _
      by_cases hturn : i = turn t
      · have := h.turn_pos hw t
        rw [if_pos hturn, hturn]
        linarith
      · rw [if_neg hturn]
        linarith

/-- **Each competitor has as many turns in the first window as it weighs.** -/
theorem count_total (h : Rounds S w c turn) (hw : 0 < ∑ k ∈ S, w k) (hi : i ∈ S) :
    Nat.count (fun k => turn k = i) (∑ k ∈ S, w k) = w i := by
  have htotal : (0 : ℚ) < (∑ k ∈ S, w k : ℕ) := by exact_mod_cast hw
  have hle : ∀ j ∈ S, Nat.count (fun k => turn k = j) (∑ k ∈ S, w k) ≤ w j := by
    intro j hj
    have hscore := h.neg_total_lt_score hw (∑ k ∈ S, w k) hj
    rw [h.score_eq _ hj] at hscore
    have hlt : ((∑ k ∈ S, w k : ℕ) : ℚ) * Nat.count (fun k => turn k = j) (∑ k ∈ S, w k) <
        (∑ k ∈ S, w k : ℕ) * (w j + 1) := by linarith
    have := lt_of_mul_lt_mul_left hlt htotal.le
    have hnat : Nat.count (fun k => turn k = j) (∑ k ∈ S, w k) < w j + 1 := by exact_mod_cast this
    omega
  exact (Finset.sum_eq_sum_iff_of_le hle).mp (h.sum_count _) i hi

theorem score_total (h : Rounds S w c turn) (hw : 0 < ∑ k ∈ S, w k) (hi : i ∈ S) :
    c (∑ k ∈ S, w k) i = 0 := by
  rw [h.score_eq _ hi, h.count_total hw hi]
  ring

/-- The rounds after a window are rounds again. -/
theorem shift (h : Rounds S w c turn) (hw : 0 < ∑ k ∈ S, w k) :
    Rounds S w (fun t => c ((∑ k ∈ S, w k) + t)) (fun t => turn ((∑ k ∈ S, w k) + t)) where
  start _ hi := h.score_total hw hi
  round _ := h.round _

/-- **The scores are zero at the end of every window.** -/
theorem score_eq_zero (h : Rounds S w c turn) (hw : 0 < ∑ k ∈ S, w k) (n : ℕ) (hi : i ∈ S) :
    c (n * ∑ k ∈ S, w k) i = 0 := by
  induction n generalizing c turn with
  | zero => simpa using h.start i hi
  | succ n ih =>
      rw [Nat.succ_mul, Nat.add_comm]
      exact ih (h.shift hw)

/-- Where equal scores lead to the same turn, a window later everything is the same. -/
theorem periodic (h : Rounds S w c turn) (hw : 0 < ∑ k ∈ S, w k)
    (hdet : ∀ t t', (∀ i ∈ S, c t i = c t' i) → turn t = turn t') (t : ℕ) :
    (∀ i ∈ S, c ((∑ k ∈ S, w k) + t) i = c t i) ∧ turn ((∑ k ∈ S, w k) + t) = turn t := by
  have hscore : ∀ i ∈ S, c ((∑ k ∈ S, w k) + t) i = c t i := by
    induction t with
    | zero => exact fun i hi => (h.score_total hw hi).trans (h.start i hi).symm
    | succ t ih =>
        intro i hi
        rw [← Nat.add_assoc, (h.round _).score i hi, (h.round t).score i hi, ih i hi, hdet _ _ ih]
  exact ⟨hscore, hdet _ _ hscore⟩

/-- **In every window of the total weight each competitor has as many turns as it weighs.** -/
theorem count_eq (h : Rounds S w c turn) (hw : 0 < ∑ k ∈ S, w k)
    (hdet : ∀ t t', (∀ i ∈ S, c t i = c t' i) → turn t = turn t') (t : ℕ) (hi : i ∈ S) :
    Nat.count (fun k => turn (t + k) = i) (∑ k ∈ S, w k) = w i := by
  have htotal : ((∑ k ∈ S, w k : ℕ) : ℚ) ≠ 0 := by
    have : (∑ k ∈ S, w k) ≠ 0 := by omega
    exact_mod_cast this
  have hperiod := (h.periodic hw hdet t).1 i hi
  rw [h.score_eq _ hi, h.score_eq _ hi, Nat.add_comm, Nat.count_add] at hperiod
  push_cast at hperiod htotal
  have hcancel : ((∑ k ∈ S, w k : ℕ) : ℚ) * Nat.count (fun k => turn (t + k) = i) (∑ k ∈ S, w k) =
      (∑ k ∈ S, w k : ℕ) * w i := by
    push_cast
    linarith
  have := mul_left_cancel₀ (by exact_mod_cast htotal) hcancel
  exact_mod_cast this

end Rounds

end StonePlus.Lib
