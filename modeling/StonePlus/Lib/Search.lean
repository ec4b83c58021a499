import Mathlib.Data.List.Infix

/-!
# StonePlus.Lib.Search

First occurrences in a list, and searching a text that arrives in pieces.

`indexOf? pattern text` is the first position at which `pattern` occurs, and
`earliest patterns text` the first at which any of several patterns does.
`Marks` are patterns that cannot overlap: then the earliest occurrence in a
text is also the earliest in any longer one (`Marks.earliest_append`).

A reader that gives text away before it has seen all of it must keep back what
may still become a pattern.  `Clear patterns given kept` says that it has kept
enough, and `Clear.give` that keeping the longest suffix which begins a
pattern is enough.
-/

namespace StonePlus.Lib

variable {α : Type}

/-! ## Occurrences -/

/-- The pattern stands at a position of the text. -/
def Occurs (pattern text : List α) (i : Nat) : Prop := pattern <+: text.drop i

theorem Occurs.append (h : Occurs pattern text i) (more : List α) :
    Occurs pattern (text ++ more) i := by
  unfold Occurs
  rw [List.drop_append]
  exact h.trans (List.prefix_append _ _)

/-- An occurrence that ends inside the front part is an occurrence there. -/
theorem Occurs.of_append (h : Occurs pattern (text ++ more) i)
    (hle : i + pattern.length ≤ text.length) : Occurs pattern text i := by
  unfold Occurs at h
  rw [List.drop_append_of_le_length (by omega)] at h
  exact List.prefix_of_prefix_length_le h (List.prefix_append _ _)
    (by rw [List.length_drop]; omega)

theorem Occurs.fits (h : Occurs pattern text i) (hpos : 0 < pattern.length) :
    i + pattern.length ≤ text.length := by
  have hle := h.length_le
  rw [List.length_drop] at hle
  omega

theorem occurs_append_right :
    Occurs pattern (front ++ text) (front.length + i) ↔ Occurs pattern text i := by
  unfold Occurs
  rw [List.drop_length_add_append]

theorem Occurs.getElem? (h : Occurs pattern text i) (hk : k < pattern.length) :
    text[i + k]? = pattern[k]? := by
  obtain ⟨rest, hrest⟩ := h
  rw [← List.getElem?_drop, ← hrest, List.getElem?_append_left hk]

/-- Inside an occurrence of a pattern that does not repeat the letter `c`,
no pattern begins that starts with `c`. -/
theorem Occurs.not_inside (h : Occurs pattern text i) (htail : c ∉ pattern.tail)
    (hother : other.head? = some c) (hij : i < j) (hj : j < i + pattern.length) :
    ¬Occurs other text j := by
  intro hoccurs
  obtain ⟨k, rfl⟩ : ∃ k, j = i + (k + 1) := ⟨j - i - 1, by omega⟩
  have hpos : 0 < other.length := by
    cases other with
    | nil => cases hother
    | cons d rest => exact Nat.succ_pos _
  have hletter : pattern[k + 1]? = some c := by
    rw [← h.getElem? (by omega), ← Nat.add_zero (i + (k + 1)), hoccurs.getElem? hpos,
      ← List.head?_eq_getElem?, hother]
  exact htail (List.mem_of_getElem? (by rwa [List.getElem?_tail]))

variable [DecidableEq α]

instance (pattern text : List α) (i : Nat) : Decidable (Occurs pattern text i) :=
  inferInstanceAs (Decidable (pattern <+: text.drop i))

/-! ## One pattern -/

/-- The first position at which a pattern occurs. -/
def indexOf? (pattern : List α) : List α → Option Nat
  | [] => if pattern = [] then some 0 else none
  | c :: rest =>
    if pattern <+: c :: rest then some 0 else (indexOf? pattern rest).map (· + 1)

variable {text : List α}

theorem indexOf?_eq_some : indexOf? pattern text = some i ↔
      Occurs pattern text i ∧ ∀ j < i, ¬Occurs pattern text j := by
  induction text generalizing i with
  | nil =>
      by_cases hp : pattern = []
      · subst hp
        cases i with
        | zero => simp [indexOf?, Occurs]
        | succ i =>
            have hfirst : Occurs ([] : List α) [] 0 := by simp [Occurs]
            constructor
            · intro h
              simp [indexOf?] at h
            · intro h
              exact absurd hfirst (h.2 0 (Nat.succ_pos i))
      · simp [indexOf?, Occurs, hp]
  | cons c rest ih =>
      rw [indexOf?]
      by_cases hp : pattern <+: c :: rest
      · rw [if_pos hp]
        constructor
        · intro h
          cases h
          exact ⟨hp, fun j hj => absurd hj (Nat.not_lt_zero j)⟩
        · rintro ⟨-, hnone⟩
          cases i with
          | zero => rfl
          | succ i => exact absurd hp (hnone 0 (Nat.succ_pos i))
      · rw [if_neg hp]
        cases i with
        | zero => simpa [Occurs] using hp
        | succ i =>
            simp only [Option.map_eq_some_iff, Nat.add_right_cancel_iff, exists_eq_right, ih]
            constructor
            · rintro ⟨hi, hnone⟩
              refine ⟨hi, fun j hj => ?_⟩
              cases j with
              | zero => exact hp
              | succ j => exact hnone j (Nat.lt_of_succ_lt_succ hj)
            · rintro ⟨hi, hnone⟩
              exact ⟨hi, fun j hj => hnone (j + 1) (Nat.succ_lt_succ hj)⟩

theorem indexOf?_eq_none : indexOf? pattern text = none ↔ ∀ j, ¬Occurs pattern text j := by
  induction text with
  | nil =>
      by_cases hp : pattern = []
      · simp [indexOf?, Occurs, hp]
      · simp [indexOf?, Occurs, hp]
  | cons c rest ih =>
      rw [indexOf?]
      by_cases hp : pattern <+: c :: rest
      · rw [if_pos hp]
        simpa using ⟨0, hp⟩
      · rw [if_neg hp, Option.map_eq_none_iff, ih]
        constructor
        · intro hnone j
          cases j with
          | zero => exact hp
          | succ j => exact hnone j
        · exact fun hnone j => hnone (j + 1)

/-- What follows does not move the first occurrence. -/
theorem indexOf?_append (h : indexOf? pattern text = some i) (hpos : 0 < pattern.length)
    (more : List α) : indexOf? pattern (text ++ more) = some i := by
  obtain ⟨hi, hnone⟩ := indexOf?_eq_some.mp h
  have hfits := hi.fits hpos
  exact indexOf?_eq_some.mpr
    ⟨hi.append more, fun j hj hoccurs => hnone j hj (hoccurs.of_append (by omega))⟩

/-- Cutting the text right behind the first occurrence keeps it. -/
theorem indexOf?_take (h : indexOf? pattern text = some i) (hpos : 0 < pattern.length) :
    indexOf? pattern (text.take (i + pattern.length)) = some i := by
  obtain ⟨hi, hnone⟩ := indexOf?_eq_some.mp h
  have hfits := hi.fits hpos
  have hsplit := List.take_append_drop (i + pattern.length) text
  refine indexOf?_eq_some.mpr ⟨?_, fun j hj hoccurs => hnone j hj ?_⟩
  · rw [← hsplit] at hi
    exact hi.of_append (by rw [List.length_take]; omega)
  · rw [← hsplit]
    exact hoccurs.append _

/-- A front in which the pattern does not begin can be skipped. -/
theorem indexOf?_append_left {pattern front : List α}
    (h : ∀ j < front.length, ¬Occurs pattern (front ++ text) j) :
    indexOf? pattern (front ++ text) = (indexOf? pattern text).map (front.length + ·) := by
  cases htext : indexOf? pattern text with
  | none =>
      rw [Option.map_none, indexOf?_eq_none]
      intro j hj
      by_cases hlt : j < front.length
      · exact h j hlt hj
      · obtain ⟨k, rfl⟩ := Nat.exists_eq_add_of_le (not_lt.mp hlt)
        exact indexOf?_eq_none.mp htext k (occurs_append_right.mp hj)
  | some i =>
      obtain ⟨hi, hnone⟩ := indexOf?_eq_some.mp htext
      rw [Option.map_some, indexOf?_eq_some]
      refine ⟨occurs_append_right.mpr hi, fun j hj hoccurs => ?_⟩
      by_cases hlt : j < front.length
      · exact h j hlt hoccurs
      · obtain ⟨k, rfl⟩ := Nat.exists_eq_add_of_le (not_lt.mp hlt)
        exact hnone k (Nat.lt_of_add_lt_add_left hj) (occurs_append_right.mp hoccurs)

/-! ## Several patterns -/

/-- One pattern of the loop: an earlier occurrence replaces the best one. -/
def keepEarliest (text : List α) (best : Option (Nat × List α)) (pattern : List α) :
    Option (Nat × List α) :=
  match indexOf? pattern text, best with
  | none, best => best
  | some i, none => some (i, pattern)
  | some i, some (j, found) => if i < j then some (i, pattern) else some (j, found)

/-- The loop over the patterns that keeps the earliest occurrence, and of
occurrences at one position that of the first pattern. -/
def earliest (patterns : List (List α)) (text : List α) : Option (Nat × List α) :=
  patterns.foldl (keepEarliest text) none

section

omit [DecidableEq α]

/-- None of the patterns occurs. -/
def Absent (patterns : List (List α)) (text : List α) : Prop :=
  ∀ m ∈ patterns, ∀ j, ¬Occurs m text j

theorem Absent.drop (h : Absent patterns text) (n : Nat) : Absent patterns (text.drop n) := by
  intro m hm j hj
  unfold Occurs at hj
  rw [List.drop_drop] at hj
  exact h m hm _ hj

/-- The pattern is one of the patterns, it occurs, and none occurs before it. -/
structure IsEarliest (patterns : List (List α)) (text : List α) (i : Nat) (m : List α) : Prop where
  mem : m ∈ patterns
  occurs : Occurs m text i
  first : ∀ other ∈ patterns, ∀ j < i, ¬Occurs other text j

/-- What the loop has found among the patterns so far. -/
def Found (patterns : List (List α)) (text : List α) : Option (Nat × List α) → Prop
  | none => Absent patterns text
  | some (i, m) => IsEarliest patterns text i m

/-- A pattern that occurs nowhere before `i` changes nothing before `i`. -/
theorem first_append (h : ∀ other ∈ patterns, ∀ j < i, ¬Occurs other text j)
    (hp : ∀ j < i, ¬Occurs p text j) :
    ∀ other ∈ patterns ++ [p], ∀ j < i, ¬Occurs other text j := by
  intro other hother
  rcases List.mem_append.mp hother with hother | hother
  · exact h other hother
  · exact List.mem_singleton.mp hother ▸ hp

end

/-- One pattern keeps what the loop has found. -/
theorem found_step (h : Found patterns text best) (p : List α) :
    Found (patterns ++ [p]) text (keepEarliest text best p) := by
  unfold keepEarliest
  cases hp : indexOf? p text with
  | none =>
      have hnone := indexOf?_eq_none.mp hp
      cases best with
      | none =>
          intro m hm
          rcases List.mem_append.mp hm with hm | hm
          · exact h m hm
          · exact List.mem_singleton.mp hm ▸ hnone
      | some best =>
          exact ⟨List.mem_append_left _ h.mem, h.occurs,
            first_append h.first fun j _ => hnone j⟩
  | some i =>
      obtain ⟨hi, hbefore⟩ := indexOf?_eq_some.mp hp
      have hlast : p ∈ patterns ++ [p] := List.mem_append_right _ List.mem_cons_self
      cases best with
      | none => exact ⟨hlast, hi, first_append (fun m hm j _ => h m hm j) hbefore⟩
      | some best =>
          obtain ⟨k, found⟩ := best
          by_cases hlt : i < k
          · simp only [if_pos hlt]
            exact ⟨hlast, hi, first_append (fun m hm j hj => h.first m hm j (hj.trans hlt)) hbefore⟩
          · simp only [if_neg hlt]
            exact ⟨List.mem_append_left _ h.mem, h.occurs,
              first_append h.first fun j hj => hbefore j (hj.trans_le (not_lt.mp hlt))⟩

theorem found_earliest (patterns : List (List α)) (text : List α) :
    Found patterns text (earliest patterns text) := by
  induction patterns using List.reverseRecOn with
  | nil => exact fun m hm => nomatch hm
  | append_singleton patterns p ih =>
      rw [earliest, List.foldl_append]
      exact found_step ih p

theorem earliest_eq_none : earliest patterns text = none ↔ Absent patterns text := by
  have hfound := found_earliest patterns text
  constructor
  · intro heq
    rwa [heq] at hfound
  · intro hnone
    cases hbest : earliest patterns text with
    | none => rfl
    | some best =>
        rw [hbest] at hfound
        exact absurd hfound.occurs (hnone best.2 hfound.mem best.1)

section

omit [DecidableEq α]

/-- Patterns none of which begins another, or stands inside another before its end. -/
structure Delimiters (patterns : List (List α)) : Prop where
  ne_nil : ∀ m ∈ patterns, m ≠ []
  eq_of_prefix : ∀ m ∈ patterns, ∀ other ∈ patterns, m <+: other → m = other
  not_inside : ∀ m ∈ patterns, ∀ other ∈ patterns, ∀ k < other.length - m.length, k ≠ 0 →
    ¬Occurs m other k

namespace Delimiters

variable {patterns : List (List α)} {text : List α} {i j : Nat} {m other : List α}

theorem length_pos (h : Delimiters patterns) (hm : m ∈ patterns) : 0 < m.length :=
  List.length_pos_of_ne_nil (h.ne_nil m hm)

/-- At most one delimiter is the earliest. -/
theorem unique (h : Delimiters patterns) (hm : IsEarliest patterns text i m)
    (hother : IsEarliest patterns text j other) : i = j ∧ m = other := by
  have hij : i = j := by
    rcases Nat.lt_trichotomy i j with hlt | heq | hgt
    · exact absurd hm.occurs (hother.first m hm.mem i hlt)
    · exact heq
    · exact absurd hother.occurs (hm.first other hother.mem j hgt)
  subst hij
  refine ⟨rfl, ?_⟩
  rcases List.prefix_or_prefix_of_prefix hm.occurs hother.occurs with hle | hle
  · exact h.eq_of_prefix m hm.mem other hother.mem hle
  · exact (h.eq_of_prefix other hother.mem m hm.mem hle).symm

/-- What follows does not move the earliest delimiter. -/
theorem isEarliest_append (h : Delimiters patterns) (hm : IsEarliest patterns text i m)
    (more : List α) : IsEarliest patterns (text ++ more) i m := by
  refine ⟨hm.mem, hm.occurs.append more, fun other hother j hj hoccurs => ?_⟩
  by_cases hle : j + other.length ≤ text.length
  · exact hm.first other hother j hj (hoccurs.of_append hle)
  · -- `m` ends before `other` does, so it stands inside of it
    have hfits := hm.occurs.fits (h.length_pos hm.mem)
    refine h.not_inside m hm.mem other hother (i - j) (by omega) (by omega) ?_
    have hstart : m <+: ((text ++ more).drop j).drop (i - j) := by
      rw [List.drop_drop, Nat.add_sub_cancel' (Nat.le_of_lt hj)]
      exact hm.occurs.append more
    have hinside : other.drop (i - j) <+: ((text ++ more).drop j).drop (i - j) :=
      hoccurs.drop (i - j)
    exact List.prefix_of_prefix_length_le hstart hinside (by rw [List.length_drop]; omega)

end Delimiters

end

theorem Delimiters.earliest_eq_some (h : Delimiters patterns) {m : List α} :
    earliest patterns text = some (i, m) ↔ IsEarliest patterns text i m := by
  have hfound := found_earliest patterns text
  constructor
  · intro heq
    rwa [heq] at hfound
  · intro hm
    cases hbest : earliest patterns text with
    | none =>
        rw [hbest] at hfound
        exact absurd hm.occurs (hfound m hm.mem i)
    | some best =>
        rw [hbest] at hfound
        obtain ⟨hi, hsame⟩ := h.unique hfound hm
        rw [← hi, ← hsame]

/-- A front in which no delimiter begins can be skipped. -/
theorem Delimiters.earliest_drop {patterns : List (List α)} (h : Delimiters patterns)
    {start : Nat} (hnone : ∀ m ∈ patterns, ∀ j < start, ¬Occurs m text j) : earliest patterns text =
      (earliest patterns (text.drop start)).map fun (i, m) => (start + i, m) := by
  have hshift (m : List α) (i : Nat) : Occurs m text (start + i) ↔ Occurs m (text.drop start) i := by
    rw [Occurs, Occurs, List.drop_drop]
  cases hrest : earliest patterns (text.drop start) with
  | none =>
      have habsent := earliest_eq_none.mp hrest
      refine earliest_eq_none.mpr fun m hm j hj => ?_
      by_cases hlt : j < start
      · exact hnone m hm j hlt hj
      · obtain ⟨k, rfl⟩ := Nat.exists_eq_add_of_le (not_lt.mp hlt)
        exact habsent m hm k ((hshift m k).mp hj)
  | some best =>
      obtain ⟨i, m⟩ := best
      have hbest := h.earliest_eq_some.mp hrest
      refine h.earliest_eq_some.mpr ⟨hbest.mem, (hshift m i).mpr hbest.occurs, ?_⟩
      intro other hother j hj hoccurs
      by_cases hlt : j < start
      · exact hnone other hother j hlt hoccurs
      · obtain ⟨k, rfl⟩ := Nat.exists_eq_add_of_le (not_lt.mp hlt)
        exact hbest.first other hother k (Nat.lt_of_add_lt_add_left hj) ((hshift other k).mp hoccurs)

/-- Patterns that begin with one letter, which none of them repeats, and none
of which begins another. -/
structure Marks (c : α) (patterns : List (List α)) : Prop where
  head : ∀ m ∈ patterns, m.head? = some c
  tail : ∀ m ∈ patterns, c ∉ m.tail
  eq_of_prefix : ∀ m ∈ patterns, ∀ other ∈ patterns, m <+: other → m = other

namespace Marks

variable {c : α} {patterns : List (List α)} {text : List α} {i j : Nat} {m other : List α}

section

omit [DecidableEq α]

theorem length_pos (h : Marks c patterns) (hm : m ∈ patterns) : 0 < m.length := by
  cases m with
  | nil => exact nomatch h.head [] hm
  | cons d rest => exact Nat.succ_pos _

/-- No mark stands inside another. -/
theorem delimiters (h : Marks c patterns) : Delimiters patterns where
  ne_nil := fun _ hm => List.ne_nil_of_length_pos (h.length_pos hm)
  eq_of_prefix := h.eq_of_prefix
  not_inside := by
    intro m hm other hother k hk hne
    have hpos := h.length_pos hm
    have hwhole : Occurs other other 0 := List.prefix_rfl
    exact hwhole.not_inside (h.tail other hother) (h.head m hm) (Nat.pos_of_ne_zero hne) (by omega)

/-- What follows does not move the earliest occurrence. -/
theorem isEarliest_append (h : Marks c patterns) (hm : IsEarliest patterns text i m)
    (more : List α) : IsEarliest patterns (text ++ more) i m :=
  h.delimiters.isEarliest_append hm more

end

theorem earliest_eq_some (h : Marks c patterns) :
    earliest patterns text = some (i, m) ↔ IsEarliest patterns text i m :=
  h.delimiters.earliest_eq_some

end Marks

/-! ## A text in pieces -/

section

omit [DecidableEq α]

variable {patterns : List (List α)} {given kept : List α}

/-- No pattern begins in what was given away, whatever follows what was kept. -/
def Clear (patterns : List (List α)) (given kept : List α) : Prop :=
  ∀ more, ∀ m ∈ patterns, ∀ j < given.length, ¬Occurs m (given ++ (kept ++ more)) j

theorem clear_nil (patterns : List (List α)) (kept : List α) : Clear patterns [] kept :=
  fun _ _ _ j hj => absurd hj (Nat.not_lt_zero j)

theorem Clear.append (h : Clear patterns given kept) (piece : List α) :
    Clear patterns given (kept ++ piece) := by
  intro more
  rw [List.append_assoc]
  exact h (piece ++ more)

theorem Clear.not_occurs (h : Clear patterns given kept) (hm : m ∈ patterns)
    (hj : j < given.length) : ¬Occurs m (given ++ kept) j := by
  have hnone := h [] m hm j hj
  rwa [List.append_nil] at hnone

theorem Clear.absent (h : Clear patterns given kept) (hkept : Absent patterns kept) :
    Absent patterns (given ++ kept) := by
  intro m hm j hoccurs
  by_cases hj : j < given.length
  · exact h.not_occurs hm hj hoccurs
  · obtain ⟨k, rfl⟩ := Nat.exists_eq_add_of_le (not_lt.mp hj)
    exact hkept m hm k (occurs_append_right.mp hoccurs)

/-- The length of the longest suffix of at most `limit` items that satisfies a
predicate, or 0. -/
def longestSuffix (p : List α → Bool) (text : List α) : Nat → Nat
  | 0 => 0
  | n + 1 => if p (text.drop (text.length - (n + 1))) then n + 1 else longestSuffix p text n

theorem longestSuffix_le (p : List α → Bool) (text : List α) (limit : Nat) :
    longestSuffix p text limit ≤ limit := by
  induction limit with
  | zero => exact Nat.le_refl 0
  | succ n ih =>
      rw [longestSuffix]
      split
      · exact Nat.le_refl _
      · exact Nat.le_succ_of_le ih

theorem longestSuffix_spec (hlt : longestSuffix p text limit < k) (hle : k ≤ limit) :
    p (text.drop (text.length - k)) = false := by
  induction limit with
  | zero => omega
  | succ n ih =>
      rw [longestSuffix] at hlt
      split at hlt
      · omega
      · next hp =>
          by_cases hk : k = n + 1
          · rw [hk]
            exact Bool.eq_false_iff.mpr hp
          · exact ih hlt (by omega)

end

/-- What does not end in the beginning of a pattern can be given away. -/
theorem Clear.give {kept : List α} (h : Clear patterns given kept) (hkept : Absent patterns kept)
    (hlimit : ∀ m ∈ patterns, m.length ≤ limit + 1)
    (hn : n = kept.length - longestSuffix (fun s => patterns.any fun m => s.isPrefixOf m) kept
      (min kept.length limit)) : Clear patterns (given ++ kept.take n) (kept.drop n) := by
  intro more m hm j hj hoccurs
  rw [List.append_assoc, ← List.append_assoc (kept.take n), List.take_append_drop] at hoccurs
  rw [List.length_append, List.length_take] at hj
  by_cases hgiven : j < given.length
  · exact h more m hm j hgiven hoccurs
  · obtain ⟨k, rfl⟩ := Nat.exists_eq_add_of_le (not_lt.mp hgiven)
    have hk : Occurs m (kept ++ more) k := occurs_append_right.mp hoccurs
    by_cases hfits : k + m.length ≤ kept.length
    · exact hkept m hm k (hk.of_append hfits)
    · -- The end of `kept` from `k` on begins `m`, and it is longer than what is kept back.
      have hbegins : kept.drop k <+: m := by
        unfold Occurs at hk
        rw [List.drop_append_of_le_length (by omega)] at hk
        refine List.prefix_of_prefix_length_le (List.prefix_append _ _) hk ?_
        rw [List.length_drop]
        omega
      have hlonger : (fun s : List α => patterns.any fun m => s.isPrefixOf m)
          (kept.drop (kept.length - (kept.length - k))) = false := by
        have hlt : longestSuffix (fun s => patterns.any fun m => s.isPrefixOf m) kept
            (min kept.length limit) < kept.length - k := by omega
        have := hlimit m hm
        exact longestSuffix_spec hlt (by omega)
      rw [show kept.length - (kept.length - k) = k by omega, List.any_eq_false] at hlonger
      exact hlonger m hm (List.isPrefixOf_iff_prefix.mpr hbegins)

end StonePlus.Lib
