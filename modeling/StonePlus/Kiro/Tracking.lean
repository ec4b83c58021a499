import StonePlus.Kiro.Output

/-!
# StonePlus.Kiro.Tracking

The invariant of the parser's tool bookkeeping, and what each tool method
does to it.

`Tracks cfg l calls s` relates the fields to the ledger of the tool uses
handled so far and to the calls already emitted: every tool heard of is
emitted, complete and waiting for an earlier one, or active, and exactly one
of the three.
-/

namespace StonePlus.Kiro

open Lib.Effect

/-! ## Prefixes -/

theorem getElem?_of_prefix {α : Type} {l l' : List α} (h : l <+: l') {k : Nat} {a : α}
    (hk : l[k]? = some a) : l'[k]? = some a := by
  obtain ⟨more, rfl⟩ := h
  rw [List.getElem?_append_left (List.getElem?_eq_some_iff.mp hk).1]
  exact hk

theorem index_eq_of_nodup {α : Type} {l : List α} (h : l.Nodup) {j : Nat} {a : α}
    (hi : l[i]? = some a) (hj : l[j]? = some a) : i = j :=
  (List.getElem?_inj (List.getElem?_eq_some_iff.mp hi).1 h).mp (hi.trans hj.symm)

theorem prefix_append_of_getElem? {α : Type} {l l' : List α} {a : α} (h : l <+: l')
    (ha : l'[l.length]? = some a) : l ++ [a] <+: l' := by
  obtain ⟨more, rfl⟩ := h
  cases more with
  | nil => simp at ha
  | cons b more =>
      simp only [List.getElem?_append_right (Nat.le_refl _), Nat.sub_self,
        List.getElem?_cons_zero, Option.some.injEq] at ha
      rw [ha]
      exact ⟨more, (List.append_cons l a more).symm⟩

/-! ## The invariant -/

/-- The calls emitted so far: numbered from zero, for the first tools heard of,
and each justified by the ledger. -/
structure Emitted (cfg : KiroConfig) (l : Ledger) (calls : List CompletedToolState) : Prop where
  index_eq : ∀ {k : Nat} {c : CompletedToolState}, calls[k]? = some c → c.index = k
  ids_prefix : calls.map CompletedToolState.id <+: l.ids
  valid : ∀ c ∈ calls, Valid cfg l c

/-- A tool that is still being received. -/
structure Active (l : Ledger) (calls : List CompletedToolState) (s : KiroState) (id : JsString)
    (state : ToolState) : Prop where
  id_eq : state.id = id
  at_index : l.ids[state.index]? = some id
  name_eq : state.name = l.name id
  input_eq : state.inputParts.flatten = l.input id
  not_emitted : calls.length ≤ state.index
  not_waiting : s.completedTools.get? state.index = none

/-- A complete tool whose turn has not come. -/
structure Waiting (cfg : KiroConfig) (l : Ledger) (calls : List CompletedToolState) (k : Nat)
    (c : CompletedToolState) : Prop where
  index_eq : c.index = k
  at_index : l.ids[k]? = some c.id
  valid : Valid cfg l c
  not_emitted : calls.length ≤ k

/-- The fields agree with the ledger and the calls emitted so far. -/
structure Tracks (cfg : KiroConfig) (l : Ledger) (calls : List CompletedToolState)
    (s : KiroState) : Prop where
  emitted : Emitted cfg l calls
  nextToolIndex_eq : s.nextToolIndex = l.ids.length
  nextToolIndexToEmit_eq : s.nextToolIndexToEmit = calls.length
  active : ∀ {id : JsString} {state : ToolState}, s.tools.get? id = some state → Active l calls s id state
  waiting : ∀ {k : Nat} {c : CompletedToolState}, s.completedTools.get? k = some c → Waiting cfg l calls k c
  covered : ∀ {k : Nat} {id : JsString}, l.ids[k]? = some id → k < calls.length ∨
    (∃ c, s.completedTools.get? k = some c) ∨ ∃ state, s.tools.get? id = some state
  retired : ∀ id, id ∈ s.completedToolIds ↔ id ∈ l.ids ∧ s.tools.get? id = none

/-- No complete tool could be emitted now. -/
def Ready (s : KiroState) : Prop := s.completedTools.get? s.nextToolIndexToEmit = none

variable {cfg : KiroConfig} {l l' : Ledger} {calls : List CompletedToolState} {s s' : KiroState}

variable {c : CompletedToolState}

theorem Emitted.at_index (h : Emitted cfg l calls) (hc : c ∈ calls) :
    c.index < calls.length ∧ l.ids[c.index]? = some c.id := by
  obtain ⟨k, hk⟩ := List.mem_iff_getElem?.mp hc
  have hlt := (List.getElem?_eq_some_iff.mp hk).1
  rw [h.index_eq hk]
  refine ⟨hlt, getElem?_of_prefix h.ids_prefix ?_⟩
  rw [List.getElem?_map, hk, Option.map_some]

/-- The invariant reads five fields. -/
theorem Tracks.congr (h : Tracks cfg l calls s) (htools : s'.tools = s.tools)
    (hcompleted : s'.completedTools = s.completedTools)
    (hids : s'.completedToolIds = s.completedToolIds) (hnext : s'.nextToolIndex = s.nextToolIndex)
    (hemit : s'.nextToolIndexToEmit = s.nextToolIndexToEmit) : Tracks cfg l calls s' where
  emitted := h.emitted
  nextToolIndex_eq := hnext.trans h.nextToolIndex_eq
  nextToolIndexToEmit_eq := hemit.trans h.nextToolIndexToEmit_eq
  active := by
    intro id state hget
    rw [htools] at hget
    have ha := h.active hget
    exact ⟨ha.id_eq, ha.at_index, ha.name_eq, ha.input_eq, ha.not_emitted,
      by rw [hcompleted]; exact ha.not_waiting⟩
  waiting := by
    rw [hcompleted]
    exact h.waiting
  covered := by
    rw [hcompleted, htools]
    exact h.covered
  retired := by
    rw [hids, htools]
    exact h.retired

theorem tracks_init (cfg : KiroConfig) : Tracks cfg .empty [] {} where
  emitted := ⟨fun h => (nomatch h), List.nil_prefix, fun _ h => (nomatch h)⟩
  nextToolIndex_eq := rfl
  nextToolIndexToEmit_eq := rfl
  active := fun h => (nomatch h)
  waiting := fun h => (nomatch h)
  covered := fun h => (nomatch h)
  retired := fun id => by simp [Ledger.empty]

/-! ## Ids -/

section

variable {id : JsString} {state : ToolState}

theorem Tracks.mem_ids (h : Tracks cfg l calls s) (hget : s.tools.get? id = some state) :
    id ∈ l.ids := List.mem_of_getElem? (h.active hget).at_index

/-- An emitted call is not active. -/
theorem Tracks.emitted_ne (h : Tracks cfg l calls s) (hget : s.tools.get? id = some state)
    (hc : c ∈ calls) : c.id ≠ id := by
  intro heq
  obtain ⟨hlt, hat⟩ := h.emitted.at_index hc
  have ha := h.active hget
  have hindex : c.index = state.index := index_eq_of_nodup l.nodup hat (heq ▸ ha.at_index)
  have := ha.not_emitted
  omega

/-- A waiting call is not active. -/
theorem Tracks.waiting_ne (h : Tracks cfg l calls s) (hget : s.tools.get? id = some state)
    {k : Nat} (hc : s.completedTools.get? k = some c) : c.id ≠ id := by
  intro heq
  have ha := h.active hget
  have hindex : k = state.index :=
    index_eq_of_nodup l.nodup (h.waiting hc).at_index (heq ▸ ha.at_index)
  rw [hindex, ha.not_waiting] at hc
  cases hc

theorem Tracks.active_ne (h : Tracks cfg l calls s) (hget : s.tools.get? id = some state)
    (hget' : s.tools.get? other = some state') (hne : other ≠ id) : state'.index ≠ state.index := by
  intro heq
  have hother := (h.active hget').at_index
  rw [heq, (h.active hget).at_index] at hother
  exact hne (Option.some.inj hother).symm

/-! ## Receiving -/

/-- What is learnt about an active tool leaves the rest alone. -/
theorem Tracks.learn (h : Tracks cfg l calls s) (hget : s.tools.get? id = some state)
    (state' : ToolState) (hid : state'.id = state.id) (hindex : state'.index = state.index)
    (hids : l'.ids = l.ids) (hname : ∀ other, other ≠ id → l'.name other = l.name other)
    (hinput : ∀ other, other ≠ id → l'.input other = l.input other)
    (hname' : state'.name = l'.name id) (hinput' : state'.inputParts.flatten = l'.input id)
    (htools : s'.tools = s.tools.set id state')
    (hcompleted : s'.completedTools = s.completedTools)
    (hcompletedIds : s'.completedToolIds = s.completedToolIds)
    (hnext : s'.nextToolIndex = s.nextToolIndex)
    (hemit : s'.nextToolIndexToEmit = s.nextToolIndexToEmit) : Tracks cfg l' calls s' where
  emitted := by
    refine ⟨h.emitted.index_eq, hids ▸ h.emitted.ids_prefix, fun c hc => ?_⟩
    have hne := h.emitted_ne hget hc
    exact (h.emitted.valid c hc).congr (hname _ hne) (hinput _ hne)
  nextToolIndex_eq := by rw [hnext, hids, h.nextToolIndex_eq]
  nextToolIndexToEmit_eq := hemit.trans h.nextToolIndexToEmit_eq
  active := by
    intro other found hfound
    rw [htools, JsMap.get?_set] at hfound
    split at hfound
    · next heq =>
        cases hfound
        have ha := h.active hget
        rw [heq]
        refine ⟨hid.trans ha.id_eq, ?_, hname', hinput', hindex ▸ ha.not_emitted, ?_⟩
        · rw [hids, hindex]
          exact ha.at_index
        · rw [hcompleted, hindex]
          exact ha.not_waiting
    · next hne =>
        have ha := h.active hfound
        refine ⟨ha.id_eq, hids ▸ ha.at_index, ?_, ?_, ha.not_emitted, hcompleted ▸ ha.not_waiting⟩
        · rw [hname _ hne, ha.name_eq]
        · rw [hinput _ hne, ha.input_eq]
  waiting := by
    intro k c hc
    rw [hcompleted] at hc
    have hw := h.waiting hc
    have hne := h.waiting_ne hget hc
    exact ⟨hw.index_eq, hids ▸ hw.at_index, hw.valid.congr (hname _ hne) (hinput _ hne),
      hw.not_emitted⟩
  covered := by
    intro k other hk
    rw [hids] at hk
    rcases h.covered hk with hlt | hwait | ⟨found, hfound⟩
    · exact .inl hlt
    · exact .inr (.inl (hcompleted ▸ hwait))
    · refine .inr (.inr ?_)
      rw [htools, JsMap.get?_set]
      split
      · exact ⟨state', rfl⟩
      · exact ⟨found, hfound⟩
  retired := by
    intro other
    rw [hcompletedIds, hids, htools, JsMap.get?_set, h.retired other]
    split
    · next heq => simp [heq, hget]
    · exact Iff.rfl

/-- A tool heard of for the first time becomes active. -/
theorem Tracks.start (h : Tracks cfg l calls s) (hnew : id ∉ l.ids)
    (htools : s'.tools = s.tools.set id { index := s.nextToolIndex, id := id })
    (hcompleted : s'.completedTools = s.completedTools)
    (hcompletedIds : s'.completedToolIds = s.completedToolIds)
    (hnext : s'.nextToolIndex = s.nextToolIndex + 1)
    (hemit : s'.nextToolIndexToEmit = s.nextToolIndexToEmit) :
    Tracks cfg (l.hear id) calls s' where
  emitted := by
    refine ⟨h.emitted.index_eq, h.emitted.ids_prefix.trans (l.ids_prefix_hear id), fun c hc => ?_⟩
    exact (h.emitted.valid c hc).congr (by rw [Ledger.name_hear]) (by rw [Ledger.input_hear])
  nextToolIndex_eq := by
    rw [hnext, Ledger.ids_hear_of_not_mem hnew, List.length_append, h.nextToolIndex_eq]
    rfl
  nextToolIndexToEmit_eq := hemit.trans h.nextToolIndexToEmit_eq
  active := by
    intro other found hfound
    rw [htools, JsMap.get?_set] at hfound
    split at hfound
    · next heq =>
        cases hfound
        rw [heq]
        refine ⟨rfl, ?_, ?_, ?_, ?_, ?_⟩
        · rw [Ledger.ids_hear_of_not_mem hnew, h.nextToolIndex_eq]
          simp
        · rw [Ledger.name_hear, l.name_fresh id hnew]
        · rw [Ledger.input_hear, l.input_fresh id hnew]
          rfl
        · rw [h.nextToolIndex_eq]
          simpa using h.emitted.ids_prefix.length_le
        · rw [hcompleted, h.nextToolIndex_eq]
          cases hwait : s.completedTools.get? l.ids.length with
          | none => rfl
          | some c => simpa using (h.waiting hwait).at_index
    · have ha := h.active hfound
      exact ⟨ha.id_eq, getElem?_of_prefix (l.ids_prefix_hear id) ha.at_index,
        by rw [Ledger.name_hear, ha.name_eq], by rw [Ledger.input_hear, ha.input_eq],
        ha.not_emitted, hcompleted ▸ ha.not_waiting⟩
  waiting := by
    intro k c hc
    rw [hcompleted] at hc
    have hw := h.waiting hc
    exact ⟨hw.index_eq, getElem?_of_prefix (l.ids_prefix_hear id) hw.at_index,
      hw.valid.congr (by rw [Ledger.name_hear]) (by rw [Ledger.input_hear]), hw.not_emitted⟩
  covered := by
    intro k other hk
    rw [htools, hcompleted, JsMap.get?_set]
    by_cases heq : other = id
    · exact .inr (.inr ⟨_, if_pos heq⟩)
    · rw [if_neg heq]
      refine h.covered ?_
      rw [Ledger.ids_hear_of_not_mem hnew, List.getElem?_append] at hk
      split at hk
      · exact hk
      · have hmem := List.mem_of_getElem? hk
        exact absurd (List.mem_singleton.mp hmem) heq
  retired := by
    intro other
    rw [hcompletedIds, htools, JsMap.get?_set, Ledger.ids_hear_of_not_mem hnew, h.retired other]
    by_cases heq : other = id
    · simp [heq, hnew]
    · simp [heq]

/-! ## Completing -/

/-- A completed tool waits for its turn. -/
theorem Tracks.complete (h : Tracks cfg l calls s) (hget : s.tools.get? id = some state)
    (hindex : c.index = state.index) (hid : c.id = id) (hvalid : Valid cfg l c)
    (htools : s'.tools = s.tools.delete id)
    (hcompleted : s'.completedTools = s.completedTools.set state.index c)
    (hcompletedIds : ∀ other, other ∈ s'.completedToolIds ↔ other ∈ s.completedToolIds ∨ other = id)
    (hnext : s'.nextToolIndex = s.nextToolIndex)
    (hemit : s'.nextToolIndexToEmit = s.nextToolIndexToEmit) : Tracks cfg l calls s' where
  emitted := h.emitted
  nextToolIndex_eq := hnext.trans h.nextToolIndex_eq
  nextToolIndexToEmit_eq := hemit.trans h.nextToolIndexToEmit_eq
  active := by
    intro other found hfound
    rw [htools, JsMap.get?_delete] at hfound
    split at hfound
    · cases hfound
    · next hne =>
        have ha := h.active hfound
        refine ⟨ha.id_eq, ha.at_index, ha.name_eq, ha.input_eq, ha.not_emitted, ?_⟩
        rw [hcompleted, JsMap.get?_set_of_ne _ _ (h.active_ne hget hfound hne)]
        exact ha.not_waiting
  waiting := by
    intro k found hfound
    rw [hcompleted, JsMap.get?_set] at hfound
    split at hfound
    · next heq =>
        cases hfound
        have ha := h.active hget
        refine ⟨hindex.trans heq.symm, ?_, hvalid, heq ▸ ha.not_emitted⟩
        rw [heq, hid]
        exact ha.at_index
    · exact h.waiting hfound
  covered := by
    intro k other hk
    rw [hcompleted, htools, JsMap.get?_set, JsMap.get?_delete]
    by_cases heq : other = id
    · have hk' : k = state.index :=
        index_eq_of_nodup l.nodup hk (heq ▸ (h.active hget).at_index)
      exact .inr (.inl ⟨c, if_pos hk'⟩)
    · rw [if_neg heq]
      rcases h.covered hk with hlt | ⟨found, hfound⟩ | hactive
      · exact .inl hlt
      · refine .inr (.inl ?_)
        split
        · exact ⟨c, rfl⟩
        · exact ⟨found, hfound⟩
      · exact .inr (.inr hactive)
  retired := by
    intro other
    rw [hcompletedIds, htools, JsMap.get?_delete, h.retired other]
    by_cases heq : other = id
    · simp [heq, h.mem_ids hget]
    · simp [heq]

end

/-- The next call in order is emitted. -/
theorem Tracks.emitNext (h : Tracks cfg l calls s)
    (hget : s.completedTools.get? s.nextToolIndexToEmit = some c) (htools : s'.tools = s.tools)
    (hcompleted : s'.completedTools = s.completedTools.delete s.nextToolIndexToEmit)
    (hcompletedIds : s'.completedToolIds = s.completedToolIds)
    (hnext : s'.nextToolIndex = s.nextToolIndex)
    (hemit : s'.nextToolIndexToEmit = s.nextToolIndexToEmit + 1) :
    Tracks cfg l (calls ++ [c]) s' := by
  rw [h.nextToolIndexToEmit_eq] at hget hcompleted
  have hw := h.waiting hget
  have hlength : (calls ++ [c]).length = calls.length + 1 := by simp
  refine ⟨⟨?_, ?_, ?_⟩, hnext.trans h.nextToolIndex_eq, ?_, ?_, ?_, ?_, ?_⟩
  · intro k found hk
    rw [List.getElem?_append] at hk
    split at hk
    · exact h.emitted.index_eq hk
    · next hge =>
        have hzero := (List.getElem?_eq_some_iff.mp hk).1
        have hk' : k = calls.length := by
          rw [List.length_singleton] at hzero
          omega
        rw [hk', Nat.sub_self, List.getElem?_cons_zero, Option.some.injEq] at hk
        rw [← hk, hk', hw.index_eq]
  · rw [List.map_append, List.map_singleton]
    refine prefix_append_of_getElem? h.emitted.ids_prefix ?_
    rw [List.length_map]
    exact hw.at_index
  · intro found hfound
    rcases List.mem_append.mp hfound with hold | hlast
    · exact h.emitted.valid found hold
    · rw [List.mem_singleton.mp hlast]
      exact hw.valid
  · rw [hemit, h.nextToolIndexToEmit_eq, hlength]
  · intro id state hfound
    rw [htools] at hfound
    have ha := h.active hfound
    have hne : state.index ≠ calls.length := by
      intro heq
      have hnone := ha.not_waiting
      rw [heq, hget] at hnone
      cases hnone
    refine ⟨ha.id_eq, ha.at_index, ha.name_eq, ha.input_eq, ?_, ?_⟩
    · have := ha.not_emitted
      omega
    · rw [hcompleted, JsMap.get?_delete_of_ne _ hne]
      exact ha.not_waiting
  · intro k found hfound
    rw [hcompleted, JsMap.get?_delete] at hfound
    split at hfound
    · cases hfound
    · next hne =>
        have hwaiting := h.waiting hfound
        refine ⟨hwaiting.index_eq, hwaiting.at_index, hwaiting.valid, ?_⟩
        have := hwaiting.not_emitted
        omega
  · intro k id hk
    rw [hcompleted, htools, JsMap.get?_delete, hlength]
    by_cases heq : k = calls.length
    · exact .inl (by omega)
    · rw [if_neg heq]
      rcases h.covered hk with hlt | hwaiting
      · exact .inl (by omega)
      · exact .inr hwaiting
  · rw [hcompletedIds, htools]
    exact h.retired

theorem readyTools_some (h : s.completedTools.get? s.nextToolIndexToEmit = some c) : readyTools s =
      (callEvents c ++ (readyTools { s with
          completedTools := s.completedTools.delete s.nextToolIndexToEmit
          nextToolIndexToEmit := s.nextToolIndexToEmit + 1 }).1,
        (readyTools { s with
          completedTools := s.completedTools.delete s.nextToolIndexToEmit
          nextToolIndexToEmit := s.nextToolIndexToEmit + 1 }).2) := by
  rw [readyTools]
  split
  · next hnone => rw [h] at hnone; cases hnone
  · next found hfound =>
      rw [h] at hfound
      cases hfound
      rfl

theorem readyTools_none (h : s.completedTools.get? s.nextToolIndexToEmit = none) :
    readyTools s = ([], s) := by
  rw [readyTools]
  split
  · rfl
  · next found hfound => rw [h] at hfound; cases hfound

/-- `emitReadyTools` emits calls in order until the next one is not complete. -/
theorem Tracks.emitReady (h : Tracks cfg l calls s) :
    ∃ new : List CompletedToolState, (readyTools s).1 = new.flatMap callEvents ∧
      Tracks cfg l (calls ++ new) (readyTools s).2 ∧ Ready (readyTools s).2 ∧
      (readyTools s).2.tools = s.tools := by
  induction hsize : s.completedTools.size using Nat.strongRecOn generalizing s calls with
  | ind size ih =>
      cases hget : s.completedTools.get? s.nextToolIndexToEmit with
      | none =>
          rw [readyTools_none hget]
          exact ⟨[], rfl, by rwa [List.append_nil], hget, rfl⟩
      | some c =>
          have hnext : Tracks cfg l (calls ++ [c]) { s with
              completedTools := s.completedTools.delete s.nextToolIndexToEmit
              nextToolIndexToEmit := s.nextToolIndexToEmit + 1 } :=
            h.emitNext hget rfl rfl rfl rfl rfl
          obtain ⟨new, hevents, htracks, hready, htools⟩ :=
            ih _ (hsize ▸ size_delete_lt hget) hnext rfl
          rw [readyTools_some hget]
          refine ⟨c :: new, ?_, ?_, hready, htools⟩
          · rw [hevents, List.flatMap_cons]
          · rw [List.append_cons]
            exact htracks

end StonePlus.Kiro
