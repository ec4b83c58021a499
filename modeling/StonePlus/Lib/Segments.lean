import Mathlib.Data.List.Basic

/-!
# StonePlus.Lib.Segments

A list cut behind every separator.

The segments of a list are not empty, put together they are the list, and any selection of them
is cut into the same segments again.
-/

namespace StonePlus.Lib

variable {α β : Type} [DecidableEq α] [DecidableEq β] {sep : α}

/-- The segments of a list: each but the last ends with its only separator. -/
def segments (sep : α) : List α → List (List α)
  | [] => []
  | a :: l =>
    if a = sep then [a] :: segments sep l
    else
      match segments sep l with
      | [] => [[a]]
      | s :: ss => (a :: s) :: ss

/-- What the segments of a list look like. -/
inductive Segmented (sep : α) : List (List α) → Prop
  | nil : Segmented sep []
  | last {s : List α} (hne : s ≠ []) (hs : sep ∉ s) : Segmented sep [s]
  | next {s : List α} {ss : List (List α)} (hs : sep ∉ s) (hss : Segmented sep ss) :
      Segmented sep ((s ++ [sep]) :: ss)

theorem flatten_segments (l : List α) : (segments sep l).flatten = l := by
  induction l with
  | nil => rfl
  | cons a l ih =>
    rw [segments]
    split
    · rw [List.flatten_cons, ih, List.singleton_append]
    · split
      · rename_i hnil
        rw [hnil] at ih
        rw [← ih]
        rfl
      · rename_i s ss hcons
        rw [hcons] at ih
        rw [← ih]
        rfl

theorem segmented_segments (l : List α) : Segmented sep (segments sep l) := by
  induction l with
  | nil => exact .nil
  | cons a l ih =>
    rw [segments]
    split
    · rename_i ha
      subst ha
      exact Segmented.next List.not_mem_nil ih
    · rename_i ha
      generalize segments sep l = ss at ih
      cases ih with
      | nil => exact .last (List.cons_ne_nil _ _) (by simpa [eq_comm] using ha)
      | last hne hs => exact .last (List.cons_ne_nil _ _) (by simp [hs, Ne.symm ha])
      | @next s ss hs hss =>
        exact Segmented.next (s := a :: s) (by simp [hs, Ne.symm ha]) hss

theorem segments_of_not_mem (hne : s ≠ []) (hs : sep ∉ s) : segments sep s = [s] := by
  induction s with
  | nil => contradiction
  | cons a s ih =>
    obtain ⟨ha, hs⟩ := not_or.mp (mt List.mem_cons.mpr hs)
    rw [segments, if_neg (Ne.symm ha)]
    cases s with
    | nil => rfl
    | cons b s => rw [ih (List.cons_ne_nil b s) hs]

theorem segments_append (hs : sep ∉ s) (l : List α) :
    segments sep (s ++ sep :: l) = (s ++ [sep]) :: segments sep l := by
  induction s with
  | nil => rw [List.nil_append, segments, if_pos rfl]; rfl
  | cons a s ih =>
    obtain ⟨ha, hs⟩ := not_or.mp (mt List.mem_cons.mpr hs)
    rw [List.cons_append, segments, if_neg (Ne.symm ha), ih hs]
    rfl

theorem Segmented.segments_flatten (h : Segmented sep ss) : segments sep ss.flatten = ss := by
  induction h with
  | nil => rfl
  | last hne hs => rw [List.flatten_singleton, segments_of_not_mem hne hs]
  | next hs _ ih =>
    rw [List.flatten_cons, List.append_assoc, List.singleton_append, segments_append hs, ih]

omit [DecidableEq α] in
theorem Segmented.filter (h : Segmented sep ss) (p : List α → Bool) :
    Segmented sep (ss.filter p) := by
  induction h with
  | nil => exact .nil
  | last hne hs =>
    rw [List.filter_cons, List.filter_nil]
    split
    · exact .last hne hs
    · exact .nil
  | next hs _ ih =>
    rw [List.filter_cons]
    split
    · exact .next hs ih
    · exact ih

omit [DecidableEq α] in
theorem Segmented.ne_nil (h : Segmented sep ss) : ∀ s ∈ ss, s ≠ [] := by
  induction h with
  | nil => exact fun _ hs => absurd hs List.not_mem_nil
  | last hne _ => exact fun s hs => List.mem_singleton.mp hs ▸ hne
  | next _ _ ih =>
    intro s hs
    rcases List.mem_cons.mp hs with rfl | hs
    · exact List.append_ne_nil_of_right_ne_nil _ (List.cons_ne_nil _ _)
    · exact ih s hs

/-- Without the first element the first segment is shorter, and gone if it was all of it. -/
theorem Segmented.segments_drop (h : Segmented sep ((a :: s) :: ss)) (ha : a ≠ sep) :
    segments sep (s ++ ss.flatten) = if s = [] then ss else s :: ss := by
  generalize hfirst : a :: s = first at h
  cases h with
  | last hne hs =>
    subst hfirst
    rw [List.flatten_nil, List.append_nil]
    split
    · rename_i hnil
      rw [hnil, segments]
    · rename_i hnil
      exact segments_of_not_mem hnil fun hin => hs (List.mem_cons_of_mem a hin)
  | @next t _ hs hss =>
    cases t with
    | nil => exact absurd (List.cons.inj hfirst).1 ha
    | cons b t =>
      obtain ⟨rfl, rfl⟩ := List.cons.inj hfirst
      have ht : sep ∉ t := fun hin => hs (List.mem_cons_of_mem a hin)
      have hne : t ++ [sep] ≠ [] := List.append_ne_nil_of_right_ne_nil _ (List.cons_ne_nil _ _)
      show segments sep (t ++ [sep] ++ ss.flatten) = if t ++ [sep] = [] then ss else (t ++ [sep]) :: ss
      rw [if_neg hne, List.append_assoc, List.singleton_append, segments_append ht,
        hss.segments_flatten]

/-- A list whose elements are each written as a list, of which only the separator's holds the
separator, is cut as it was before. -/
theorem segments_flatMap {sep' : β} {f : α → List β} (hsep : f sep = [sep'])
    (hne : ∀ a, f a ≠ []) (hmem : ∀ a, sep' ∈ f a → a = sep) (l : List α) :
    segments sep' (l.flatMap f) = (segments sep l).map (·.flatMap f) := by
  suffices hall : ∀ ss, Segmented sep ss → segments sep' (ss.flatten.flatMap f) =
      ss.map (·.flatMap f) by
    have h := hall _ (@segmented_segments _ _ sep l)
    rwa [flatten_segments] at h
  have hnot : ∀ s : List α, sep ∉ s → sep' ∉ s.flatMap f := by
    intro s hs hin
    obtain ⟨a, ha, hin⟩ := List.mem_flatMap.mp hin
    exact hs (hmem a hin ▸ ha)
  intro ss h
  induction h with
  | nil => rfl
  | @last s hs hnone =>
    obtain ⟨a, s, rfl⟩ := List.exists_cons_of_ne_nil hs
    have hout : (a :: s).flatMap f ≠ [] := by simp [hne a]
    rw [List.flatten_singleton, segments_of_not_mem hout (hnot _ hnone)]
    rfl
  | @next s ss hs _ ih =>
    simp only [List.flatten_cons, List.flatMap_append, List.flatMap_cons, List.flatMap_nil, hsep,
      List.append_nil, List.map_cons, List.append_assoc, List.singleton_append]
    rw [segments_append (hnot s hs), ih]

end StonePlus.Lib
