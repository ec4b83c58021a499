import StonePlus.Compact.Fallback
import Mathlib.Data.List.Chain

/-!
# StonePlus.Compact.Shrinking

When the retries of a compact fallback shrink the history.

`Passed` says of an item that a prefix trim leaves it out, in terms of the items around the trim's
place.  A retry shrinks the history if and only if it passes an item the request before has kept.
-/

namespace StonePlus.Compact

open Json

variable {history : List Json}

/-! ## Items by their places -/

def IsCallOf (history : List Json) (i : Nat) (id : JsString) : Prop :=
  ∃ item, history[i]? = some item ∧ callId item = some id

def IsOutputOf (history : List Json) (i : Nat) (id : JsString) : Prop :=
  ∃ item, history[i]? = some item ∧ outputId item = some id

/-- From the cut to `j` there are only dependent outputs. -/
def Leads (history : List Json) (cut j : Nat) : Prop :=
  cut ≤ j ∧ ∀ k, cut ≤ k → k ≤ j →
    ∃ item, history[k]? = some item ∧ isCompactDependentToolOutput item = true

/-- The call, the last before the cut, of an output the cut has landed on. -/
def Tied (history : List Json) (cut i : Nat) : Prop :=
  i < cut ∧ ∃ j id, Leads history cut j ∧ IsOutputOf history j id ∧ IsCallOf history i id ∧
    ∀ k, i < k → k < cut → ¬IsCallOf history k id

/-- A cut passes what stands before it and the outputs it has landed on; but if one of these has
its call before the cut, only what stands before all such calls. -/
def Passed (history : List Json) (cut i : Nat) : Prop :=
  0 < cut ∧ (∀ t, Tied history cut t → i < t) ∧
    ((∃ t, Tied history cut t) ∨ i < cut ∨ Leads history cut i)

/-- What a cut keeps: what it does not pass, but for the outputs all of whose calls it passes. -/
def Kept (history : List Json) (cut i : Nat) : Prop :=
  i < history.length ∧ ¬Passed history cut i ∧
    ∀ id, IsOutputOf history i id → ∃ j, ¬Passed history cut j ∧ IsCallOf history j id

/-! ## Where the retained history starts -/

theorem lt_length_takeWhile_iff {α : Type} {p : α → Bool} {l : List α} :
    j < (l.takeWhile p).length ↔ ∀ k ≤ j, ∃ a, l[k]? = some a ∧ p a = true := by
  induction l generalizing j with
  | nil => simpa using ⟨0, Nat.zero_le j⟩
  | cons a l ih =>
    rw [List.takeWhile_cons]
    split
    · rename_i ha
      cases j with
      | zero => simp [ha]
      | succ j =>
        rw [List.length_cons, Nat.add_lt_add_iff_right, ih]
        constructor
        · intro h k hk
          cases k with
          | zero => exact ⟨a, rfl, ha⟩
          | succ k => simpa using h k (by omega)
        · intro h k hk
          simpa using h (k + 1) (by omega)
    · rename_i ha
      simp only [List.length_nil, Nat.not_lt_zero, false_iff]
      intro h
      obtain ⟨b, hb, hp⟩ := h 0 (Nat.zero_le j)
      cases hb
      exact ha hp

theorem leads_iff {cut j : Nat} :
    Leads history cut j ↔ cut ≤ j ∧ j < cut + (leadingOutputs history cut).length := by
  refine and_congr_right fun hle => ?_
  obtain ⟨d, rfl⟩ := Nat.exists_eq_add_of_le hle
  rw [Nat.add_lt_add_iff_left, leadingOutputs, lt_length_takeWhile_iff]
  simp only [List.getElem?_drop]
  constructor
  · exact fun h k hk => h (cut + k) (by omega) (by omega)
  · intro h k hk hkd
    obtain ⟨e, rfl⟩ := Nat.exists_eq_add_of_le hk
    exact h e (by omega)

theorem getElem?_leadingOutputs (h : Leads history cut j) :
    (leadingOutputs history cut)[j - cut]? = history[j]? := by
  obtain ⟨hle, hlt⟩ := leads_iff.mp h
  have hfront : leadingOutputs history cut <+: history.drop cut := List.takeWhile_prefix _
  have hd : j - cut < (leadingOutputs history cut).length := by omega
  rw [List.getElem?_eq_getElem hd, hfront.getElem hd, ← List.getElem?_eq_getElem,
    List.getElem?_drop, Nat.add_sub_cancel' hle]

theorem mem_leadingOutputs_iff :
    output ∈ leadingOutputs history cut ↔ ∃ j, Leads history cut j ∧ history[j]? = some output := by
  rw [List.mem_iff_getElem?]
  constructor
  · rintro ⟨d, hd⟩
    have hlt : d < (leadingOutputs history cut).length := (List.getElem?_eq_some_iff.mp hd).1
    have hleads : Leads history cut (cut + d) := leads_iff.mpr ⟨by omega, by omega⟩
    have hget := getElem?_leadingOutputs hleads
    rw [Nat.add_sub_cancel_left, hd] at hget
    exact ⟨cut + d, hleads, hget.symm⟩
  · rintro ⟨j, hleads, hget⟩
    exact ⟨j - cut, (getElem?_leadingOutputs hleads).trans hget⟩

theorem lastCall_eq_some {id : JsString} : lastCall history id start = some i ↔
      i < start ∧ IsCallOf history i id ∧ ∀ k, i < k → k < start → ¬IsCallOf history k id := by
  have hcall : ∀ k, history[k]?.bind callId = some id ↔ IsCallOf history k id := fun k =>
    Option.bind_eq_some_iff
  induction start with
  | zero => simp [lastCall]
  | succ start ih =>
    rw [lastCall]
    split
    · rename_i hlast
      constructor
      · intro h
        have hi : start = i := Option.some.inj h
        subst hi
        exact ⟨Nat.lt_succ_self _, (hcall start).mp hlast, fun k hk hlt => by omega⟩
      · rintro ⟨hlt, -, hnone⟩
        by_contra hne
        have : i ≠ start := fun heq => hne (congrArg some heq.symm)
        exact hnone start (by omega) (Nat.lt_succ_self _) ((hcall start).mp hlast)
    · rename_i hlast
      refine ih.trans ?_
      constructor
      · rintro ⟨hlt, hi, hnone⟩
        refine ⟨by omega, hi, fun k hk hks => ?_⟩
        obtain hks | rfl := Nat.lt_succ_iff_lt_or_eq.mp hks
        · exact hnone k hk hks
        · exact fun h => hlast ((hcall k).mpr h)
      · rintro ⟨hlt, hi, hnone⟩
        have : i ≠ start := fun heq => hlast ((hcall start).mpr (heq ▸ hi))
        exact ⟨by omega, hi, fun k hk hks => hnone k hk (by omega)⟩

theorem tied_iff : Tied history cut i ↔
      ∃ output ∈ leadingOutputs history cut, matchedCall history cut output = some i := by
  constructor
  · rintro ⟨hlt, j, id, hleads, ⟨output, hget, hid⟩, hcall, hlast⟩
    refine ⟨output, mem_leadingOutputs_iff.mpr ⟨j, hleads, hget⟩, ?_⟩
    rw [outputId] at hid
    split at hid
    · exact Option.bind_eq_some_iff.mpr ⟨id, hid, lastCall_eq_some.mpr ⟨hlt, hcall, hlast⟩⟩
    · cases hid
  · rintro ⟨output, hmem, hmatched⟩
    obtain ⟨id, hid, hlast⟩ := Option.bind_eq_some_iff.mp hmatched
    obtain ⟨hlt, hcall, hnone⟩ := lastCall_eq_some.mp hlast
    obtain ⟨j, hleads, hget⟩ := mem_leadingOutputs_iff.mp hmem
    have hdependent : isCompactDependentToolOutput output = true :=
      (List.mem_takeWhile_imp hmem)
    exact ⟨hlt, j, id, hleads, ⟨output, hget, by rw [outputId, if_pos hdependent, hid]⟩, hcall,
      hnone⟩

/-- The least of the values a function has on a list, or the start. -/
theorem foldl_min {α : Type} (f : α → Option Nat) (l : List α) (start : Nat) :
    let least := l.foldl (fun earliest a => match f a with
      | none => earliest
      | some i => min earliest i) start
    least ≤ start ∧ (∀ a ∈ l, ∀ i, f a = some i → least ≤ i) ∧
      (least = start ∨ ∃ a ∈ l, f a = some least) := by
  induction l generalizing start with
  | nil => simp
  | cons a l ih =>
    rw [List.foldl_cons]
    cases ha : f a with
    | none =>
      obtain ⟨hle, hall, hsome⟩ := ih start
      refine ⟨hle, fun b hb i hi => ?_, hsome.imp_right fun ⟨b, hb, hf⟩ => ⟨b, .tail _ hb, hf⟩⟩
      obtain rfl | hb := List.mem_cons.mp hb
      · rw [ha] at hi
        cases hi
      · exact hall b hb i hi
    | some m =>
      obtain ⟨hle, hall, hsome⟩ := ih (min start m)
      dsimp only
      refine ⟨hle.trans (min_le_left _ _), fun b hb i hi => ?_, ?_⟩
      · obtain rfl | hb := List.mem_cons.mp hb
        · rw [ha] at hi
          cases hi
          exact hle.trans (min_le_right _ _)
        · exact hall b hb i hi
      · obtain heq | ⟨b, hb, hf⟩ := hsome
        · obtain hm | hm := min_choice start m
          · exact .inl (heq.trans hm)
          · exact .inr ⟨a, .head _, by rw [ha, heq, hm]⟩
        · exact .inr ⟨b, .tail _ hb, hf⟩

/-- The retained history starts behind what the cut passes. -/
theorem lt_retainedStart_iff (hcut : cut = 0 ∨ cut < history.length) :
    i < compactFallbackRetainedStart history cut ↔ Passed history cut i := by
  obtain rfl | hlt := hcut
  · simp [compactFallbackRetainedStart, Passed]
  · obtain rfl | hpos := Nat.eq_zero_or_pos cut
    · simp [compactFallbackRetainedStart, Passed]
    · have hmin : min history.length cut = cut := by omega
      have hgo : ¬(cut = 0 ∨ cut ≥ history.length) := by omega
      obtain ⟨hle, hall, hsome⟩ :=
        foldl_min (matchedCall history cut) (leadingOutputs history cut) cut
      rw [compactFallbackRetainedStart, hmin, if_neg hgo]
      dsimp only
      split
      · rename_i hbefore
        obtain heq | ⟨output, hmem, hmatched⟩ := hsome
        · exact absurd heq (Nat.ne_of_lt hbefore)
        · have htied : Tied history cut (earliestMatchedCall history cut) :=
            tied_iff.mpr ⟨output, hmem, hmatched⟩
          constructor
          · intro hi
            refine ⟨hpos, fun t ht => ?_, .inl ⟨_, htied⟩⟩
            obtain ⟨other, hother, hmatch⟩ := tied_iff.mp ht
            exact hi.trans_le (hall other hother t hmatch)
          · exact fun h => h.2.1 _ htied
      · rename_i hbefore
        have hnone : ¬∃ t, Tied history cut t := by
          rintro ⟨t, ht⟩
          obtain ⟨output, hmem, hmatched⟩ := tied_iff.mp ht
          exact hbefore ((hall output hmem t hmatched).trans_lt ht.1)
        constructor
        · intro hi
          refine ⟨hpos, fun t ht => absurd ⟨t, ht⟩ hnone, .inr ?_⟩
          by_cases hcut : i < cut
          · exact .inl hcut
          · exact .inr (leads_iff.mpr ⟨by omega, hi⟩)
        · rintro ⟨-, -, htied | hcut | hleads⟩
          · exact absurd htied hnone
          · omega
          · exact (leads_iff.mp hleads).2

/-! ## What is pruned -/

/-- An output whose call is not in a history. -/
def orphan (history : List Json) (value : Json) : Bool :=
  match outputId value with
  | none => false
  | some id => id ∉ history.filterMap callId

theorem pruneCompactOrphanToolOutputs_eq (history : List Json) :
    pruneCompactOrphanToolOutputs history = history.filter fun value => !orphan history value := by
  refine List.filter_congr fun value _ => ?_
  rw [orphan, outputId, isCompactDependentToolOutput]
  cases isCompactToolOutput value with
  | false => simp
  | true =>
    cases hasType value [js "tool_search_output"] <;>
      cases value.get? (js "execution") == some (.string (js "server")) <;>
        cases nonBlank (value.get? (js "call_id")) <;> simp [-List.mem_filterMap]

/-- What is retained from a place on. -/
def retained (history : List Json) (start : Nat) : List Json :=
  pruneCompactOrphanToolOutputs (history.drop start)

theorem mem_callIds_drop {id : JsString} :
    id ∈ (history.drop start).filterMap callId ↔ ∃ j, start ≤ j ∧ IsCallOf history j id := by
  rw [List.mem_filterMap]
  constructor
  · rintro ⟨item, hmem, hid⟩
    obtain ⟨d, hd⟩ := List.mem_iff_getElem?.mp hmem
    exact ⟨start + d, Nat.le_add_right _ _, item, by rwa [List.getElem?_drop] at hd, hid⟩
  · rintro ⟨j, hle, item, hget, hid⟩
    obtain ⟨d, rfl⟩ := Nat.exists_eq_add_of_le hle
    exact ⟨item, List.mem_iff_getElem?.mpr ⟨d, by rwa [List.getElem?_drop]⟩, hid⟩

theorem orphan_eq_false {value : Json} : orphan (history.drop start) value = false ↔
      ∀ id, outputId value = some id → ∃ j, start ≤ j ∧ IsCallOf history j id := by
  rw [orphan]
  cases outputId value with
  | none => simp
  | some id => simp [← mem_callIds_drop]

/-- What is kept from a place on, item by item. -/
def KeptFrom (history : List Json) (start i : Nat) : Prop :=
  start ≤ i ∧ ∃ item, history[i]? = some item ∧ orphan (history.drop start) item = false

theorem kept_iff (hcut : cut = 0 ∨ cut < history.length) :
    Kept history cut i ↔ KeptFrom history (compactFallbackRetainedStart history cut) i := by
  have hpassed : ∀ j, ¬Passed history cut j ↔ compactFallbackRetainedStart history cut ≤ j :=
    fun j => by rw [← lt_retainedStart_iff hcut, not_lt]
  rw [Kept, KeptFrom]
  simp only [hpassed, orphan_eq_false]
  constructor
  · rintro ⟨hlt, hle, hcalls⟩
    exact ⟨hle, history[i], List.getElem?_eq_getElem hlt, fun id hid =>
      hcalls id ⟨_, List.getElem?_eq_getElem hlt, hid⟩⟩
  · rintro ⟨hle, item, hget, hcalls⟩
    refine ⟨(List.getElem?_eq_some_iff.mp hget).1, hle, fun id ⟨other, hother, hid⟩ => ?_⟩
    rw [hget] at hother
    cases hother
    exact hcalls id hid

theorem orphan_mono (hle : start ≤ later) (h : orphan (history.drop later) value = false) :
    orphan (history.drop start) value = false := by
  rw [orphan_eq_false] at h ⊢
  intro id hid
  obtain ⟨j, hj, hcall⟩ := h id hid
  exact ⟨j, hle.trans hj, hcall⟩

theorem hasType_disjoint {value : Json} {types others : List JsString}
    (h : hasType value types = true) (hdisjoint : types.all (· ∉ others) = true) :
    hasType value others = false := by
  unfold hasType at h ⊢
  split at h
  · have := List.all_eq_true.mp hdisjoint _ (of_decide_eq_true h)
    simpa using this
  · cases h

/-- A call is no output. -/
theorem orphan_of_callId {id : JsString} (h : callId value = some id) :
    orphan history value = false := by
  rw [callId] at h
  split at h
  · rename_i hcall
    have houtput : isCompactToolOutput value = false := hasType_disjoint hcall (by decide)
    simp [orphan, outputId, isCompactDependentToolOutput, houtput]
  · cases h

theorem drop_split (hle : start ≤ later) :
    history.drop start = (history.drop start).take (later - start) ++ history.drop later := by
  conv_lhs => rw [← List.take_append_drop (later - start) (history.drop start)]
  rw [List.drop_drop, Nat.add_sub_cancel' hle]

theorem mem_segment :
    item ∈ (history.drop start).take n ↔ ∃ d < n, history[start + d]? = some item := by
  rw [List.mem_iff_getElem?]
  constructor
  · rintro ⟨d, hd⟩
    rw [List.getElem?_take] at hd
    split at hd
    · rename_i hlt
      exact ⟨d, hlt, by rwa [List.getElem?_drop] at hd⟩
    · cases hd
  · rintro ⟨d, hlt, hget⟩
    exact ⟨d, by rw [List.getElem?_take, if_pos hlt, List.getElem?_drop, hget]⟩

/-- What is retained from a later place on is a part of what is retained from an earlier one. -/
theorem retained_sublist (hle : start ≤ later) :
    (retained history later).Sublist (retained history start) := by
  rw [retained, retained, pruneCompactOrphanToolOutputs_eq, pruneCompactOrphanToolOutputs_eq]
  have hdrop : (history.drop later).Sublist (history.drop start) := by
    rw [drop_split hle]
    exact List.sublist_append_right _ _
  refine List.Sublist.trans (List.monotone_filter_right _ fun value h => ?_) (hdrop.filter _)
  simp only [Bool.not_eq_true'] at h ⊢
  exact orphan_mono hle h

theorem retained_split (hle : start ≤ later) : retained history start =
      ((history.drop start).take (later - start)).filter (fun value =>
        !orphan (history.drop start) value) ++
      (history.drop later).filter fun value => !orphan (history.drop start) value := by
  rw [retained, pruneCompactOrphanToolOutputs_eq]
  rw [← List.filter_append, ← drop_split hle]

/-- A later place retains a smaller part if and only if an item before it was kept. -/
theorem retained_smaller_iff : ((retained history later).Sublist (retained history start) ∧
      (retained history later).length < (retained history start).length) ↔
      ∃ i, KeptFrom history start i ∧ i < later := by
  constructor
  · rintro ⟨-, hlength⟩
    by_contra hnone
    have hsame : (retained history start).Sublist (retained history later) := by
      obtain hle | hle := Nat.le_total later start
      · exact retained_sublist hle
      · have hfirst : ((history.drop start).take (later - start)).filter (fun value =>
            !orphan (history.drop start) value) = [] := by
          rw [List.filter_eq_nil_iff]
          intro item hmem hkept
          obtain ⟨d, hd, hget⟩ := mem_segment.mp hmem
          exact hnone ⟨start + d, ⟨Nat.le_add_right _ _, item, hget, by simpa using hkept⟩, by omega⟩
        rw [retained_split hle, hfirst, List.nil_append, retained, pruneCompactOrphanToolOutputs_eq]
        refine List.monotone_filter_right _ fun value hkept => ?_
        simp only [Bool.not_eq_true'] at hkept ⊢
        rw [orphan_eq_false] at hkept ⊢
        intro id hid
        obtain ⟨j, hj, hcall⟩ := hkept id hid
        refine ⟨j, ?_, hcall⟩
        -- a call before `later` would be kept
        by_contra hlt
        obtain ⟨call, hget, hcallId⟩ := hcall
        exact hnone ⟨j, ⟨hj, call, hget, orphan_of_callId hcallId⟩, not_le.mp hlt⟩
    exact absurd hsame.length_le (by omega)
  · rintro ⟨i, ⟨hle, item, hget, hkept⟩, hlt⟩
    have hsl : start ≤ later := by omega
    refine ⟨retained_sublist hsl, ?_⟩
    have hfirst : item ∈ ((history.drop start).take (later - start)).filter (fun value =>
        !orphan (history.drop start) value) := by
      refine List.mem_filter.mpr ⟨mem_segment.mpr ⟨i - start, by omega, ?_⟩, by simp [hkept]⟩
      rw [Nat.add_sub_cancel' hle, hget]
    have hsecond : (retained history later).Sublist
        ((history.drop later).filter fun value => !orphan (history.drop start) value) := by
      rw [retained, pruneCompactOrphanToolOutputs_eq]
      refine List.monotone_filter_right _ fun value h => ?_
      simp only [Bool.not_eq_true'] at h ⊢
      exact orphan_mono hsl h
    have := List.length_pos_of_mem hfirst
    have := hsecond.length_le
    rw [retained_split hsl, List.length_append]
    omega

/-! ## What an attempt is for -/

/-- The newest item that is not an output without its call. -/
def newest? (history : List Json) : Option Json :=
  history.reverse.find? fun item => !orphan history item

/-- Every output that names its call comes with it. -/
def Paired (history : List Json) : Prop :=
  ∀ output ∈ history, ∀ id, outputId output = some id →
    ∃ call ∈ history, callId call = some id

theorem mem_retained_iff :
    item ∈ retained history start ↔ ∃ i, start ≤ i ∧ history[i]? = some item ∧
      orphan (history.drop start) item = false := by
  rw [retained, pruneCompactOrphanToolOutputs_eq, List.mem_filter, List.mem_iff_getElem?]
  simp only [Bool.not_eq_true', List.getElem?_drop]
  constructor
  · rintro ⟨⟨d, hget⟩, hkept⟩
    exact ⟨start + d, Nat.le_add_right _ _, hget, hkept⟩
  · rintro ⟨i, hle, hget, hkept⟩
    exact ⟨⟨i - start, by rwa [Nat.add_sub_cancel' hle]⟩, hkept⟩

theorem retained_ne_nil_iff : retained history start ≠ [] ↔ ∃ i, KeptFrom history start i := by
  constructor
  · intro hne
    obtain ⟨item, hmem⟩ := List.exists_mem_of_ne_nil _ hne
    obtain ⟨i, hle, hget, hkept⟩ := mem_retained_iff.mp hmem
    exact ⟨i, hle, item, hget, hkept⟩
  · rintro ⟨i, hle, item, hget, hkept⟩
    exact List.ne_nil_of_mem (mem_retained_iff.mpr ⟨i, hle, hget, hkept⟩)

theorem paired_retained (start : Nat) : Paired (retained history start) := by
  intro output hmem id hid
  obtain ⟨-, -, -, hkept⟩ := mem_retained_iff.mp hmem
  obtain ⟨j, hj, call, hget, hcall⟩ := orphan_eq_false.mp hkept id hid
  exact ⟨call, mem_retained_iff.mpr ⟨j, hj, hget, orphan_of_callId hcall⟩, hcall⟩

theorem retained_sublist_history (start : Nat) : (retained history start).Sublist history := by
  rw [retained, pruneCompactOrphanToolOutputs_eq]
  exact List.filter_sublist.trans (List.drop_sublist _ _)

/-- The place of the newest item. -/
def Newest (history : List Json) (i : Nat) : Prop :=
  Kept history 0 i ∧ ∀ k, i < k → ¬Kept history 0 k

theorem kept_zero_iff :
    Kept history 0 i ↔ ∃ item, history[i]? = some item ∧ orphan history item = false := by
  have hstart : compactFallbackRetainedStart history 0 = 0 := by
    simp [compactFallbackRetainedStart]
  rw [kept_iff (.inl rfl), hstart, KeptFrom, List.drop_zero]
  exact and_iff_right (Nat.zero_le i)

theorem newest?_eq_some :
    newest? history = some item ↔ ∃ i, Newest history i ∧ history[i]? = some item := by
  rw [newest?, List.find?_eq_some_iff_append]
  simp only [Bool.not_eq_true', Newest, kept_zero_iff]
  constructor
  · rintro ⟨hkept, after, before, hsplit, hafter⟩
    have hhistory : history = before.reverse ++ item :: after.reverse := by
      rw [← List.reverse_reverse history, hsplit]
      simp
    have hget : history[before.length]? = some item := by
      rw [hhistory, List.getElem?_append_right (by simp)]
      simp
    refine ⟨before.length, ⟨⟨item, hget, hkept⟩, fun k hk ⟨other, hother, hnot⟩ => ?_⟩, hget⟩
    rw [hhistory, List.getElem?_append_right (by simp; omega)] at hother
    obtain ⟨d, hd⟩ := Nat.exists_eq_add_of_lt hk
    rw [List.length_reverse, show k - before.length = d + 1 by omega, List.getElem?_cons_succ]
      at hother
    have := hafter other (List.mem_reverse.mp (List.mem_of_getElem? hother))
    simp [hnot] at this
  · rintro ⟨i, ⟨⟨other, hother, hkept⟩, hlater⟩, hget⟩
    rw [hget] at hother
    cases hother
    refine ⟨hkept, (history.drop (i + 1)).reverse, (history.take i).reverse, ?_, ?_⟩
    · obtain ⟨hlt, heq⟩ := List.getElem?_eq_some_iff.mp hget
      conv_lhs => rw [← List.take_append_drop i history, List.drop_eq_getElem_cons hlt, heq]
      simp
    · intro later hmem
      obtain ⟨d, hd⟩ := List.mem_iff_getElem?.mp (List.mem_reverse.mp hmem)
      rw [List.getElem?_drop] at hd
      cases hcase : orphan history later with
      | true => rfl
      | false => exact absurd ⟨later, hd, hcase⟩ (hlater (i + 1 + d) (by omega))

/-- Whether the newest item is retained from a place on. -/
theorem newest_mem_retained_iff :
    (∀ item, newest? history = some item → item ∈ retained history start) ↔
      ∀ i, Newest history i → KeptFrom history start i := by
  constructor
  · intro h i hi
    obtain ⟨item, hget, hkept⟩ := kept_zero_iff.mp hi.1
    obtain ⟨j, hj, hgetj, hkeptj⟩ := mem_retained_iff.mp (h item (newest?_eq_some.mpr ⟨i, hi, hget⟩))
    refine ⟨?_, item, hget, hkeptj⟩
    by_contra hlt
    exact hi.2 j (by omega) (kept_zero_iff.mpr ⟨item, hgetj, hkept⟩)
  · intro h item hitem
    obtain ⟨i, hi, hget⟩ := newest?_eq_some.mp hitem
    obtain ⟨hle, other, hother, hkept⟩ := h i hi
    rw [hget] at hother
    cases hother
    exact mem_retained_iff.mpr ⟨i, hle, hget, hkept⟩

/-! ## The cuts -/

/-- The cuts of a history, one for each request. -/
def dropCounts (historyLength : Nat) : List Nat :=
  [0, 1, 3, 7, 15, 31].filter (· < historyLength - 1) ++ [historyLength - 1]

/-- The drop counts are the ones the loop goes through. -/
def Follows (historyLength : Nat) : Nat → Nat → List Nat → Prop
  | current, retry, [] => nextCompactFallbackDropCount current historyLength retry = none
  | current, retry, next :: rest =>
    nextCompactFallbackDropCount current historyLength retry = some next ∧
      Follows historyLength next (retry + 1) rest

instance Follows.decidable : ∀ n current retry rest, Decidable (Follows n current retry rest)
  | n, current, retry, [] =>
    inferInstanceAs (Decidable (nextCompactFallbackDropCount current n retry = none))
  | n, current, retry, next :: rest =>
    have : Decidable (Follows n next (retry + 1) rest) := Follows.decidable n next (retry + 1) rest
    inferInstanceAs (Decidable (nextCompactFallbackDropCount current n retry = some next ∧
      Follows n next (retry + 1) rest))

theorem dropCounts_follow (n : Nat) :
    dropCounts n = 0 :: (dropCounts n).tail ∧ Follows n 0 0 (dropCounts n).tail ∧
      (dropCounts n).tail.length ≤ maxCompactContextRetries ∧
      ∀ cut ∈ dropCounts n, cut = 0 ∨ cut < n := by
  obtain hsmall | hlarge := Nat.lt_or_ge n 33
  · revert n
    decide
  · have hcuts : dropCounts n = [0, 1, 3, 7, 15, 31, n - 1] := by
      have hlt : ∀ cut ∈ [0, 1, 3, 7, 15, 31], cut < n - 1 := by
        simp only [List.mem_cons, List.not_mem_nil, or_false, forall_eq_or_imp, forall_eq]
        omega
      rw [dropCounts, List.filter_eq_self.mpr fun cut hcut => by simpa using hlt cut hcut]
      rfl
    rw [hcuts]
    refine ⟨rfl, ?_, by simp [maxCompactContextRetries], ?_⟩
    · simp only [List.tail_cons, Follows, nextCompactFallbackDropCount, maxCompactContextRetries]
      simp
      omega
    · simp only [List.mem_cons, List.not_mem_nil, or_false, forall_eq_or_imp, forall_eq]
      omega

/-! ## Runs -/

section
variable {quote : JsString → JsString} {body : List (JsString × Json)}

/-- What a retry must send. -/
def Smaller (earlier later : List Json) : Prop :=
  later.Sublist earlier ∧ later.length < earlier.length

/-- The histories that are sent, whatever the answers: each is a smaller part of the one before,
in the order of the request's history, with the newest item and with every call an output names;
and there are no more retries than allowed. -/
def Shrinks (quote : JsString → JsString) (body : List (JsString × Json)) : Prop :=
  ∀ answers, (sentHistories quote body answers).IsChain Smaller ∧
    (∀ history ∈ sentHistories quote body answers,
      history.Sublist (compactHistory quote body) ∧
      (∀ item, newest? (compactHistory quote body) = some item → item ∈ history) ∧
      Paired history) ∧
    (sentHistories quote body answers).length ≤ 1 + maxCompactContextRetries

/-- A request that names a previous response is never sent. -/
def Sendable (body : List (JsString × Json)) : Prop :=
  property? body (js "previous_response_id") = none ∨
    property? body (js "previous_response_id") = some .null

/-- The history a cut retains. -/
abbrev historyAt (history : List Json) (cut : Nat) : List Json :=
  retained history (compactFallbackRetainedStart history cut)

theorem buildCompactFallbackBody_eq_ok : buildCompactFallbackBody quote body cut = .ok sent ↔
      Sendable body ∧ sent = historyAt (compactHistory quote body) cut ∧ sent ≠ [] := by
  have hhistory : pruneCompactOrphanToolOutputs ((compactHistory quote body).drop
      (compactFallbackRetainedStart (compactHistory quote body) cut)) =
        historyAt (compactHistory quote body) cut := rfl
  rw [buildCompactFallbackBody, hhistory, Sendable]
  generalize property? body (js "previous_response_id") = previous
  generalize historyAt (compactHistory quote body) cut = history
  by_cases hnone : previous = none ∨ previous = some .null
  · have hblank : nonBlank previous = none := by
      obtain rfl | rfl := hnone <;> rfl
    have hset : ¬(previous ≠ none ∧ previous ≠ some .null ∧ nonBlank previous = none) := by
      obtain rfl | rfl := hnone <;> simp
    rw [if_neg hset, hblank, if_neg (by simp)]
    split
    · rename_i hempty
      have := List.length_eq_zero_iff.mp hempty
      simp [this]
    · rename_i hne
      constructor
      · intro h
        cases h
        exact ⟨hnone, rfl, fun h => hne (by simp [h])⟩
      · rintro ⟨-, rfl, -⟩
        rfl
  · obtain ⟨hsome, hnull⟩ := not_or.mp hnone
    simp only [hnone, false_and, iff_false]
    cases hblank : nonBlank previous with
    | none => simp [hsome, hnull]
    | some id => simp

/-- The cuts to come, as long as something is retained. -/
def sendableCuts (history : List Json) (cuts : List Nat) : List Nat :=
  cuts.takeWhile fun cut => historyAt history cut ≠ []

theorem sendableCuts_cons : sendableCuts history (cut :: cuts) =
      if historyAt history cut = [] then [] else cut :: sendableCuts history cuts := by
  by_cases h : historyAt history cut = [] <;> simp [sendableCuts, h]

/-- The loop sends the histories of cuts to come, and all of them if every answer is an overflow
in time. -/
theorem retryLoop_sent (hbody : Sendable body)
    (hrest : Follows (compactHistory quote body).length current retry rest)
    (hretries : retry + rest.length ≤ maxCompactContextRetries) (sent : List (List Json))
    (answers : List Answer) : ∃ taken, taken <+: sendableCuts (compactHistory quote body) rest ∧
      (retryLoop quote body ⟨current, retry, sent⟩ answers).sent =
        sent ++ taken.map (historyAt (compactHistory quote body)) ∧
      ((∀ answer ∈ answers, answer = ⟨true, false⟩) → rest.length ≤ answers.length →
        taken = sendableCuts (compactHistory quote body) rest) := by
  induction rest generalizing current retry sent answers with
  | nil =>
    refine ⟨[], List.nil_prefix, ?_, fun _ _ => rfl⟩
    have hnone : nextCompactFallbackDropCount current (compactHistory quote body).length retry =
        none := hrest
    cases answers with
    | nil => simp [retryLoop]
    | cons answer answers =>
      rw [retryLoop]
      split <;> simp [hnone]
  | cons next rest ih =>
    obtain ⟨hnext, hrest⟩ := hrest
    rw [List.length_cons] at hretries
    cases answers with
    | nil => exact ⟨[], List.nil_prefix, by simp [retryLoop], fun _ hlength => by simp at hlength⟩
    | cons answer answers =>
      by_cases hgo : answer.overflow = true ∧ answer.late = false
      · have hguard : retry < maxCompactContextRetries ∧ answer.overflow = true :=
          ⟨by omega, hgo.1⟩
        simp only [retryLoop, hguard, and_self, if_true, hnext, hgo.2, Bool.false_eq_true, if_false]
        rw [sendableCuts_cons]
        cases hbuild : buildCompactFallbackBody quote body next with
        | error error =>
          have hnil : historyAt (compactHistory quote body) next = [] := by
            by_contra hne
            have := buildCompactFallbackBody_eq_ok.mpr ⟨hbody, rfl, hne⟩
            rw [hbuild] at this
            cases this
          exact ⟨[], List.nil_prefix, by simp, fun _ _ => by rw [if_pos hnil]⟩
        | ok history =>
          obtain ⟨-, rfl, hne⟩ := buildCompactFallbackBody_eq_ok.mp hbuild
          obtain ⟨taken, hfront, hsent, hall⟩ := ih hrest (by omega)
            (sent ++ [historyAt (compactHistory quote body) next]) answers
          refine ⟨next :: taken, ?_, ?_, fun hanswers hlength => ?_⟩
          · rw [if_neg hne]
            exact List.cons_prefix_cons.mpr ⟨rfl, hfront⟩
          · rw [hsent]
            simp
          · rw [if_neg hne, hall (fun other hother => hanswers other (.tail _ hother))
              (by simpa using hlength)]
      · refine ⟨[], List.nil_prefix, ?_, fun hanswers _ => ?_⟩
        · rw [retryLoop]
          split
          · rename_i hguard
            have hlate : answer.late = true := by
              cases hcase : answer.late with
              | true => rfl
              | false => exact absurd ⟨hguard.2, hcase⟩ hgo
            simp [hnext, hlate]
          · simp
        · exact absurd (by rw [hanswers answer (.head _)]; exact ⟨rfl, rfl⟩) hgo

/-- The histories that are sent belong to the first cuts, and to all that retain something if
every answer is an overflow in time. -/
theorem sentHistories_eq (hbody : Sendable body) (answers : List Answer) :
    let history := compactHistory quote body
    ∃ taken, taken <+: sendableCuts history (dropCounts history.length) ∧
      sentHistories quote body answers = taken.map (historyAt history) ∧
      (answers = List.replicate maxCompactContextRetries ⟨true, false⟩ →
        taken = sendableCuts history (dropCounts history.length)) := by
  intro history
  obtain ⟨hcuts, hfollows, hlength, -⟩ := dropCounts_follow history.length
  rw [hcuts, sendableCuts_cons, sentHistories]
  cases hbuild : buildCompactFallbackBody quote body 0 with
  | error error =>
    have hnil : historyAt history 0 = [] := by
      by_contra hne
      have := buildCompactFallbackBody_eq_ok.mpr ⟨hbody, rfl, hne⟩
      rw [hbuild] at this
      cases this
    exact ⟨[], List.nil_prefix, rfl, fun _ => by rw [if_pos hnil]⟩
  | ok first =>
    obtain ⟨-, rfl, hne⟩ := buildCompactFallbackBody_eq_ok.mp hbuild
    obtain ⟨taken, hfront, hsent, hall⟩ :=
      retryLoop_sent hbody hfollows (by omega) [historyAt history 0] answers
    rw [if_neg hne]
    refine ⟨0 :: taken, List.cons_prefix_cons.mpr ⟨rfl, hfront⟩, hsent, ?_⟩
    rintro rfl
    rw [hall (fun answer h => List.eq_of_mem_replicate h) (by simpa using hlength)]

/-! ## When the retries shrink the history -/

/-- At every retry, as long as it retains something: an item is passed that the request before has
kept, and the newest item is kept. -/
def Advances (history : List Json) : List Nat → Prop
  | cut :: next :: cuts =>
    (∃ i, Kept history next i) →
      (∃ i, Kept history cut i ∧ Passed history next i) ∧
      (∀ i, Newest history i → Kept history next i) ∧ Advances history (next :: cuts)
  | _ => True

/-- A list of histories as `Shrinks` asks for it. -/
def Whole (history : List Json) (sent : List (List Json)) : Prop :=
  sent.IsChain Smaller ∧
    ∀ part ∈ sent, ∀ item, newest? history = some item → item ∈ part

theorem Whole.of_prefix (h : Whole history sent) (hfront : part <+: sent) : Whole history part := by
  obtain ⟨rest, rfl⟩ := hfront
  exact ⟨h.1.left_of_append, fun item hitem => h.2 item (List.mem_append_left rest hitem)⟩

theorem whole_iff_advances (hcuts : ∀ d ∈ cut :: cuts, d = 0 ∨ d < history.length)
    (hnewest : ∀ item, newest? history = some item → item ∈ historyAt history cut) :
    Whole history ((cut :: sendableCuts history cuts).map (historyAt history)) ↔
      Advances history (cut :: cuts) := by
  induction cuts generalizing cut with
  | nil =>
    refine iff_of_true ⟨List.isChain_singleton _, fun part hpart => ?_⟩ trivial
    obtain rfl := List.mem_singleton.mp hpart
    exact hnewest
  | cons next cuts ih =>
    have hnext : next = 0 ∨ next < history.length := hcuts next (by simp)
    have hkept : (∃ i, Kept history next i) ↔ historyAt history next ≠ [] := by
      rw [retained_ne_nil_iff]
      exact exists_congr fun i => kept_iff hnext
    have hsmaller : (∃ i, Kept history cut i ∧ Passed history next i) ↔
        Smaller (historyAt history cut) (historyAt history next) := by
      rw [Smaller, retained_smaller_iff]
      exact exists_congr fun i => and_congr (kept_iff (hcuts cut (by simp)))
        (lt_retainedStart_iff hnext).symm
    have hkeeps : (∀ i, Newest history i → Kept history next i) ↔
        ∀ item, newest? history = some item → item ∈ historyAt history next := by
      rw [newest_mem_retained_iff]
      exact forall_congr' fun i => imp_congr_right fun _ => kept_iff hnext
    rw [Advances, hkept, hsmaller, hkeeps, sendableCuts_cons]
    by_cases hnil : historyAt history next = []
    · rw [if_pos hnil]
      refine iff_of_true ⟨List.isChain_singleton _, fun part hpart => ?_⟩ fun hne => absurd hnil hne
      obtain rfl := List.mem_singleton.mp hpart
      exact hnewest
    · rw [if_neg hnil, forall_prop_of_true hnil]
      have ih := fun h => @ih next (fun d hd => hcuts d (.tail _ hd)) h
      simp only [List.map_cons] at ih ⊢
      constructor
      · rintro ⟨hchain, hall⟩
        obtain ⟨hfirst, hchain⟩ := List.isChain_cons_cons.mp hchain
        have hin := hall _ (.tail _ (.head _))
        exact ⟨hfirst, hin, (ih hin).mp ⟨hchain, fun part hpart => hall part (.tail _ hpart)⟩⟩
      · rintro ⟨hfirst, hin, hrest⟩
        obtain ⟨hchain, hall⟩ := (ih hin).mpr hrest
        refine ⟨List.isChain_cons_cons.mpr ⟨hfirst, hchain⟩, fun part hpart => ?_⟩
        obtain rfl | hpart := List.mem_cons.mp hpart
        · exact hnewest
        · exact hall part hpart

theorem retainedStart_zero : compactFallbackRetainedStart history 0 = 0 := by
  simp [compactFallbackRetainedStart]

theorem whole_sendableCuts (history : List Json) :
    Whole history ((sendableCuts history (dropCounts history.length)).map (historyAt history)) ↔
      Advances history (dropCounts history.length) := by
  obtain ⟨hcuts, -, -, hvalid⟩ := dropCounts_follow history.length
  rw [hcuts] at hvalid ⊢
  generalize (dropCounts history.length).tail = cuts at hvalid ⊢
  rw [sendableCuts_cons]
  by_cases hnil : historyAt history 0 = []
  · rw [if_pos hnil]
    refine iff_of_true ⟨.nil, by simp⟩ ?_
    cases cuts with
    | nil => trivial
    | cons next cuts =>
      -- nothing that is left out of the whole history is retained by a cut
      rintro ⟨i, hkept⟩
      have hne := retained_ne_nil_iff.mpr ⟨i, (kept_iff (hvalid next (by simp))).mp hkept⟩
      have hsub : (historyAt history next).Sublist (historyAt history 0) :=
        retained_sublist (by rw [retainedStart_zero]; exact Nat.zero_le _)
      rw [hnil, List.sublist_nil] at hsub
      exact absurd hsub hne
  · rw [if_neg hnil]
    refine whole_iff_advances hvalid (newest_mem_retained_iff.mpr fun i hi => ?_)
    exact (kept_iff (.inl rfl)).mp hi.1

end

end StonePlus.Compact
