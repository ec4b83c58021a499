import Mathlib.Data.List.Infix

/-!
# StonePlus.Lib.Replace

Words replaced in a text, in one pass from the left that takes the longest
word at each place.

`NoStart` says where no word starts: such a stretch is copied, and a longest word
behind it is replaced by the mark.  The two lemmas about this are all a reader
of pieces needs in order to agree with the pass.
-/

namespace StonePlus.Lib

variable {α : Type} [DecidableEq α] {words : List (List α)} {mark : List α}

/-- The length of the longest of the words a text starts with, 0 if there is none. -/
def longest : List (List α) → List α → Nat
  | [], _ => 0
  | w :: ws, text => if w <+: text then max w.length (longest ws text) else longest ws text

/-- The pass, with so many letters of a replaced word still to skip. -/
def replaceFrom (words : List (List α)) (mark : List α) : Nat → List α → List α
  | _, [] => []
  | skip + 1, _ :: cs => replaceFrom words mark skip cs
  | 0, c :: cs =>
    match longest words (c :: cs) with
    | 0 => c :: replaceFrom words mark 0 cs
    | n + 1 => mark ++ replaceFrom words mark n cs

/-- A text with every word replaced by the mark, leftmost and longest first. -/
def replaceAll (words : List (List α)) (mark : List α) (text : List α) : List α :=
  replaceFrom words mark 0 text

/-- No word but the empty one starts a text. -/
def NoStart (words : List (List α)) (text : List α) : Prop :=
  ∀ w ∈ words, w <+: text → w = []

/-! ## The longest word -/

theorem length_le_longest (hw : w ∈ words) (h : w <+: text) : w.length ≤ longest words text := by
  induction words with
  | nil => simp at hw
  | cons v vs ih =>
    rw [longest]
    obtain rfl | hw := List.mem_cons.mp hw
    · rw [if_pos h]
      exact le_max_left _ _
    · have := ih hw
      split <;> omega

theorem longest_le (h : ∀ w ∈ words, w <+: text → w.length ≤ n) : longest words text ≤ n := by
  induction words with
  | nil => exact Nat.zero_le n
  | cons v vs ih =>
    have hvs := ih fun w hw => h w (List.mem_cons_of_mem v hw)
    rw [longest]
    split
    · rename_i hv
      exact max_le (h v List.mem_cons_self hv) hvs
    · exact hvs

theorem longest_eq (hw : w ∈ words) (hstart : w <+: text)
    (hmost : ∀ v ∈ words, v <+: text → v.length ≤ w.length) : longest words text = w.length :=
  Nat.le_antisymm (longest_le hmost) (length_le_longest hw hstart)

theorem longest_eq_zero (h : NoStart words text) : longest words text = 0 :=
  Nat.le_zero.mp (longest_le fun w hw hstart => by simp [h w hw hstart])

/-! ## The pass -/

@[simp] theorem replaceAll_nil : replaceAll words mark [] = [] := rfl

theorem replaceFrom_drop (skip : Nat) (text : List α) :
    replaceFrom words mark skip text = replaceAll words mark (text.drop skip) := by
  induction text generalizing skip with
  | nil => simp [replaceFrom]
  | cons c cs ih =>
    cases skip with
    | zero => rfl
    | succ skip => rw [replaceFrom, ih, List.drop_succ_cons]

theorem replaceAll_cons (h : NoStart words (c :: cs)) :
    replaceAll words mark (c :: cs) = c :: replaceAll words mark cs := by
  rw [replaceAll, replaceFrom, longest_eq_zero h]
  rfl

/-- A stretch in which no word starts is copied. -/
theorem replaceAll_append {copied rest : List α}
    (h : ∀ i < copied.length, NoStart words ((copied ++ rest).drop i)) :
    replaceAll words mark (copied ++ rest) = copied ++ replaceAll words mark rest := by
  induction copied with
  | nil => rfl
  | cons c copied ih =>
    have hfirst : NoStart words (c :: (copied ++ rest)) := h 0 (by simp)
    have hrest : ∀ i < copied.length, NoStart words ((copied ++ rest).drop i) := fun i hi =>
      h (i + 1) (by simpa using hi)
    rw [List.cons_append, replaceAll_cons hfirst, ih hrest, List.cons_append]

/-- A longest word is replaced. -/
theorem replaceAll_longest {w rest : List α} (hne : w ≠ []) (hw : w ∈ words)
    (hmost : ∀ v ∈ words, v <+: w ++ rest → v.length ≤ w.length) :
    replaceAll words mark (w ++ rest) = mark ++ replaceAll words mark rest := by
  have hlongest := longest_eq hw (List.prefix_append w rest) hmost
  cases w with
  | nil => contradiction
  | cons c cs =>
    rw [List.cons_append] at hlongest ⊢
    rw [replaceAll, replaceFrom, hlongest, List.length_cons]
    show mark ++ replaceFrom words mark cs.length (cs ++ rest) = _
    rw [replaceFrom_drop, List.drop_left]

/-- A text in which no word starts is left as it is. -/
theorem replaceAll_of_noStart (h : ∀ i < text.length, NoStart words (text.drop i)) :
    replaceAll words mark text = text := by
  simpa using @replaceAll_append α _ words mark text [] (by simpa using h)

/-- A text that is one of the words is replaced as a whole. -/
theorem replaceAll_word (hne : w ≠ []) (hw : w ∈ words) : replaceAll words mark w = mark := by
  have := @replaceAll_longest α _ words mark w [] hne hw fun v _ hv => by
    simpa using hv.length_le
  simpa using this

end StonePlus.Lib
