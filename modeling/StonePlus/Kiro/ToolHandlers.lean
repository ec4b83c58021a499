import StonePlus.Kiro.Tracking

/-!
# StonePlus.Kiro.ToolHandlers

One specification for each tool method of the parser, against the ledger:
what it leaves if it returns, and that it has emitted nothing, or only
justified calls, if it throws.
-/

namespace StonePlus.Kiro

open Lib.Effect

variable {cfg : KiroConfig} {l : Ledger} {calls : List CompletedToolState} {s : KiroState}
  {id : JsString} {state : ToolState}

/-! ## Receiving -/

theorem wp_openTool (h : Tracks cfg l calls s) (hready : Ready s) (hid : id ∉ s.completedToolIds) :
    wp (openTool cfg id) s
      (fun state s' out => out = [] ∧ Tracks cfg (l.hear id) calls s' ∧ Ready s' ∧
        s'.tools.get? id = some state)
      fun _ _ out => out = [] := by
  simp only [openTool, wp_bind, wp_get, List.nil_append]
  cases hget : s.tools.get? id with
  | some state =>
      rw [Ledger.hear_of_mem (h.mem_ids hget)]
      exact ⟨rfl, h, hready, hget⟩
  | none =>
      have hnew : id ∉ l.ids := fun hmem => hid ((h.retired id).mpr ⟨hmem, hget⟩)
      simp only [wp_bind, wp_ensure, wp_modify, saveTool, wp_pure, List.nil_append]
      split
      · split
        · exact ⟨trivial, h.start hnew rfl rfl rfl rfl rfl, hready, JsMap.get?_set_self _ _ _⟩
        · trivial
      · trivial

theorem optionalString_of_requiredString (h : requiredString value path = .ok name) :
    optionalString value = some name := by
  unfold requiredString at h
  split at h
  · cases h
    rfl
  · cases h

theorem wp_nameTool (h : Tracks cfg l calls s) (hready : Ready s)
    (hget : s.tools.get? id = some state) (field : Option Json) :
    wp (nameTool state field) s
      (fun state' s' out => out = [] ∧
        Tracks cfg (l.setName id (optionalString field)) calls s' ∧ Ready s' ∧
        s'.tools.get? id = some state')
      fun _ _ out => out = [] := by
  cases field with
  | none => exact ⟨rfl, h, hready, hget⟩
  | some value =>
      simp only [nameTool, wp_bind, wp_lift]
      cases hname : requiredString (some value) "toolUseEvent.name" with
      | error e => trivial
      | ok name =>
          obtain rfl := (h.active hget).id_eq
          simp only [wp_ensure, saveTool, wp_modify, wp_pure, List.nil_append]
          split
          · rw [optionalString_of_requiredString hname]
            have hlearn : Tracks cfg (l.setName state.id (some name)) calls { s with
                tools := s.tools.set state.id { state with name := some name } } :=
              h.learn hget { state with name := some name } rfl rfl (Ledger.ids_setName ..)
                (fun other hne => Ledger.name_setName_of_ne hne _)
                (fun other _ => by rw [Ledger.input_setName])
                (Ledger.name_setName_self (h.mem_ids hget) name).symm
                (by rw [Ledger.input_setName, ← (h.active hget).input_eq]) rfl rfl rfl rfl rfl
            exact ⟨trivial, hlearn, hready, JsMap.get?_set_self _ _ _⟩
          · trivial

theorem inputPart_eq_ok (h : appendToolInput.inputPart state input = .ok (part, mode)) :
    inputText input = some part := by
  unfold appendToolInput.inputPart at h
  split at h
  · split at h
    · cases h
    · cases h; rfl
  · split at h
    · cases h; rfl
    · cases h
  · cases h

/-- What is remembered about the input besides its text is not tracked. -/
theorem Tracks.measure (h : Tracks cfg l calls s) (hget : s.tools.get? id = some state)
    (mode : Option InputMode) (characters bytes : Nat) :
    Tracks cfg l calls { s with
      tools := s.tools.set id { state with inputMode := mode, inputCharacters := characters }
      totalToolInputBytes := bytes } :=
  h.learn hget { state with inputMode := mode, inputCharacters := characters } rfl rfl rfl
    (fun _ _ => rfl) (fun _ _ => rfl) (h.active hget).name_eq (h.active hget).input_eq
    rfl rfl rfl rfl rfl

/-- A fragment is appended. -/
theorem Tracks.receive (h : Tracks cfg l calls s) (hget : s.tools.get? id = some state)
    (part : JsString) :
    Tracks cfg (l.append id (some part)) calls { s with
      tools := s.tools.set id { state with inputParts := state.inputParts ++ [part] } } := by
  have hinput : (state.inputParts ++ [part]).flatten = (l.append id (some part)).input id := by
    rw [Ledger.input_append_self (h.mem_ids hget), ← (h.active hget).input_eq]
    simp
  exact h.learn hget { state with inputParts := state.inputParts ++ [part] } rfl rfl
    (Ledger.ids_append ..) (fun _ _ => by rw [Ledger.name_append])
    (fun other hne => Ledger.input_append_of_ne hne _)
    (by rw [Ledger.name_append, ← (h.active hget).name_eq]) hinput rfl rfl rfl rfl rfl

theorem wp_appendToolInput (h : Tracks cfg l calls s) (hready : Ready s)
    (hget : s.tools.get? id = some state) (input : Json) :
    wp (appendToolInput cfg state input) s
      (fun state' s' out => out = [] ∧ Tracks cfg (l.append id (inputText input)) calls s' ∧
        Ready s' ∧ s'.tools.get? id = some state')
      fun _ _ out => out = [] := by
  simp only [appendToolInput, wp_bind, wp_lift]
  cases hpart : appendToolInput.inputPart state input with
  | error e => trivial
  | ok parsed =>
      obtain ⟨part, mode⟩ := parsed
      rw [inputPart_eq_ok hpart]
      obtain rfl := (h.active hget).id_eq
      simp only [wp_ensure, saveTool, wp_modify, wp_get, wp_pure, List.nil_append]
      split
      · split
        · have hmeasured := h.measure hget (some mode) (state.inputCharacters + part.length)
            (s.totalToolInputBytes + part.byteLength)
          exact ⟨trivial, hmeasured.receive (JsMap.get?_set_self _ _ _) part, hready,
            JsMap.get?_set_self _ _ _⟩
        · trivial
      · trivial

/-! ## Completing -/

theorem prepareCompletedTool_eq_ok (h : prepareCompletedTool cfg state recovered = .ok completed) :
    completed.index = state.index ∧ completed.id = state.id ∧
      state.name = some completed.name ∧ completed.name ∈ cfg.declaredToolNames ∧
      ∃ input, parseToolInput (rawToolInput state) state.id = .ok input ∧
        checkSchema cfg completed.name input = .ok () ∧
        completed.arguments = Json.stringify (.object input) := by
  unfold prepareCompletedTool at h
  split at h
  · next c name hname =>
      obtain ⟨_, hpure, h⟩ := bind_eq_ok.mp h
      cases hpure
      dsimp only at h
      split at h
      · cases h
      · next hdeclared =>
          obtain ⟨input, hinput, h⟩ := bind_eq_ok.mp h
          obtain ⟨⟨⟩, hschema, h⟩ := bind_eq_ok.mp h
          split at h
          · cases h
          · cases h
            exact ⟨rfl, rfl, hname, not_not.mp hdeclared, input, hinput, hschema, rfl⟩
  · obtain ⟨_, hthrow, -⟩ := bind_eq_ok.mp h
    cases hthrow

theorem parseToolInput_eq_ok (h : parseToolInput value id = .ok input) :
    Json.parse value = some (.object input) := by
  unfold parseToolInput at h
  split at h
  · cases h
  · next heq =>
      cases h
      exact heq
  · cases h

theorem checkSchema_eq_ok (h : checkSchema cfg name input = .ok ())
    (hschema : cfg.declaredToolSchemas.get? name = some schema) :
    validateSchemaValue cfg.regExps (maxSchemaValidationDepth + 1) (.object input) schema
      (js "$") = none := by
  unfold checkSchema at h
  rw [hschema] at h
  dsimp only at h
  split at h
  · assumption
  · cases h

/-- A call that is prepared from an active tool is justified. -/
theorem Tracks.valid_of_prepared (h : Tracks cfg l calls s) (hget : s.tools.get? id = some state)
    (hprepared : prepareCompletedTool cfg state recovered = .ok completed) :
    Valid cfg l completed := by
  obtain ⟨-, hid, hname, hdeclared, input, hinput, hschema, harguments⟩ :=
    prepareCompletedTool_eq_ok hprepared
  have hactive := h.active hget
  have hraw : rawToolInput state = finalInput (l.input id) := by
    rw [← hactive.input_eq]
    rfl
  rw [hactive.id_eq] at hid
  refine ⟨by rw [hid, ← hactive.name_eq, hname], hdeclared, input, ?_, harguments,
    fun schema hget => checkSchema_eq_ok hschema hget⟩
  rw [hid, ← hraw]
  exact parseToolInput_eq_ok hinput

theorem wp_emitReadyTools :
    wp emitReadyTools s post fail ↔ post () (readyTools s).2 (readyTools s).1 := Iff.rfl

theorem wp_commitCompletedTool (h : Tracks cfg l calls s) (hget : s.tools.get? id = some state)
    {recovered : Bool} {completed : CompletedToolState}
    (hprepared : prepareCompletedTool cfg state recovered = .ok completed) :
    wp (commitCompletedTool cfg state completed recovered) s
      (fun _ s' out => ∃ new, out = new.flatMap callEvents ∧ Tracks cfg l (calls ++ new) s' ∧
        Ready s' ∧ s'.tools = s.tools.delete id)
      fun _ _ out => out = [] := by
  obtain ⟨hindex, hid, -⟩ := prepareCompletedTool_eq_ok hprepared
  obtain rfl := (h.active hget).id_eq
  have hvalid := h.valid_of_prepared hget hprepared
  -- Whatever the diagnostics are, the tool waits for its turn and is then emitted with the rest.
  have hemit : ∀ s' : KiroState, s'.tools = s.tools.delete state.id →
      s'.completedTools = s.completedTools.set state.index completed →
      s'.completedToolIds = (if state.id ∈ s.completedToolIds then s.completedToolIds
        else s.completedToolIds ++ [state.id]) →
      s'.nextToolIndex = s.nextToolIndex → s'.nextToolIndexToEmit = s.nextToolIndexToEmit →
      ∃ new, (readyTools s').1 = new.flatMap callEvents ∧
        Tracks cfg l (calls ++ new) (readyTools s').2 ∧ Ready (readyTools s').2 ∧
        (readyTools s').2.tools = s.tools.delete state.id := by
    intro s' htools hcompleted hcompletedIds hnext hnextEmit
    have hretired : ∀ other, other ∈ s'.completedToolIds ↔
        other ∈ s.completedToolIds ∨ other = state.id := by
      intro other
      rw [hcompletedIds]
      split
      · next hmem => exact ⟨.inl, fun hor => hor.elim id fun heq => heq ▸ hmem⟩
      · simp
    have hcomplete : Tracks cfg l calls s' :=
      h.complete hget hindex hid hvalid htools hcompleted hretired hnext hnextEmit
    obtain ⟨new, hevents, htracks, hready, hsame⟩ := hcomplete.emitReady
    exact ⟨new, hevents, htracks, hready, hsame.trans htools⟩
  simp only [commitCompletedTool, wp_bind, wp_get, wp_ensure, wp_modify, wp_whenever, diagnose,
    wp_emitReadyTools, List.nil_append]
  split
  · split
    · split
      · exact hemit _ rfl rfl rfl rfl rfl
      · exact hemit _ rfl rfl rfl rfl rfl
    · trivial
  · trivial

theorem wp_completeTool (h : Tracks cfg l calls s) (hget : s.tools.get? id = some state)
    (recovered : Bool) :
    wp (completeTool cfg state recovered) s
      (fun _ s' out => ∃ new, out = new.flatMap callEvents ∧ Tracks cfg l (calls ++ new) s' ∧
        Ready s')
      fun _ _ out => out = [] := by
  simp only [completeTool, wp_bind, wp_lift]
  cases hprepared : prepareCompletedTool cfg state recovered with
  | error e => trivial
  | ok completed =>
      refine wp_mono (wp_commitCompletedTool h hget hprepared) ?_ fun _ _ _ hout => hout
      rintro - s' out ⟨new, hevents, htracks, hready, -⟩
      exact ⟨new, hevents, htracks, hready⟩

/-! ## `toolUseEvent` -/

/-- The end of a `toolUseEvent`: its tool is completed if the `stop` field says so. -/
theorem wp_stopTool (h : Tracks cfg l calls s) (hready : Ready s)
    (hget : s.tools.get? id = some state) (field : Option Json) :
    wp (do
        let stop ← stopField field
        whenever (stop = true) (completeTool cfg state false) : Handler Unit) s
      (fun _ s' out => ∃ new, out = new.flatMap callEvents ∧ Tracks cfg l (calls ++ new) s' ∧
        Ready s')
      fun _ _ out => out = [] := by
  simp only [wp_bind, wp_lift]
  cases stopField field with
  | error e => trivial
  | ok stop =>
      simp only [wp_whenever, List.nil_append]
      split
      · exact wp_completeTool h hget false
      · exact ⟨[], rfl, by rwa [List.append_nil], hready⟩

/-- A handled `toolUseEvent` enters one tool use in the ledger and emits the
calls that became ready; a rejected one emits nothing. -/
theorem wp_handleToolUse (h : Tracks cfg l calls s) (hready : Ready s) (payload : Json) :
    wp (handleToolUse cfg payload) s
      (fun _ s' out => ∃ use new, ToolUse.ofPayload payload = some use ∧
        out = new.flatMap callEvents ∧ Tracks cfg (l.add use) (calls ++ new) s' ∧ Ready s')
      fun _ _ out => out = [] := by
  simp only [handleToolUse, wp_bind, wp_lift, wp_get, wp_ensure, List.nil_append]
  cases hid : requiredString (payload.get? (js "toolUseId")) "toolUseEvent.toolUseId" with
  | error e => trivial
  | ok id =>
      dsimp only
      split
      case isFalse => trivial
      case isTrue hfresh =>
        have huse : ToolUse.ofPayload payload = some ⟨id,
            optionalString (payload.get? (js "name")),
            (payload.get? (js "input")).bind inputText⟩ := by
          rw [ToolUse.ofPayload, optionalString_of_requiredString hid]
          rfl
        refine wp_mono (wp_openTool h hready hfresh) ?_ fun _ _ _ hout => hout
        rintro opened s₁ out ⟨rfl, h₁, hready₁, hget₁⟩
        refine wp_mono (wp_nameTool h₁ hready₁ hget₁ _) ?_ fun _ _ _ hout => hout
        rintro named s₂ out ⟨rfl, h₂, hready₂, hget₂⟩
        cases hinput : payload.get? (js "input") with
        | none =>
            rw [hinput] at huse
            rw [wp_bind, wp_pure]
            refine wp_mono (wp_stopTool h₂ hready₂ hget₂ _) ?_ fun _ _ _ hout => hout
            rintro - s₃ out ⟨new, hevents, htracks, hready₃⟩
            exact ⟨_, new, huse, hevents, htracks, hready₃⟩
        | some input =>
            rw [hinput] at huse
            rw [wp_bind]
            refine wp_mono (wp_appendToolInput h₂ hready₂ hget₂ input) ?_ fun _ _ _ hout => hout
            rintro received s₃ out ⟨rfl, h₃, hready₃, hget₃⟩
            refine wp_mono (wp_stopTool h₃ hready₃ hget₃ _) ?_ fun _ _ _ hout => hout
            rintro - s₄ out ⟨new, hevents, htracks, hready₄⟩
            exact ⟨_, new, huse, hevents, htracks, hready₄⟩

/-! ## Recovery -/

theorem prepareAll_eq_ok (h : prepareAll cfg pending = .ok prepared) :
    prepared.map Prod.fst = pending ∧
      ∀ p ∈ prepared, prepareCompletedTool cfg p.1 true = .ok p.2 := by
  induction pending generalizing prepared with
  | nil =>
      cases h
      exact ⟨rfl, fun _ hp => nomatch hp⟩
  | cons state rest ih =>
      obtain ⟨completed, hcompleted, h⟩ := bind_eq_ok.mp h
      obtain ⟨more, hmore, h⟩ := bind_eq_ok.mp h
      cases h
      obtain ⟨hstates, hall⟩ := ih hmore
      exact ⟨by rw [List.map_cons, hstates], List.forall_mem_cons.mpr ⟨hcompleted, hall⟩⟩

/-- Prepared tools are committed one after another; a commit that throws leaves
the calls emitted before it. -/
theorem wp_commitAll (h : Tracks cfg l calls s) (hready : Ready s)
    {prepared : List (ToolState × CompletedToolState)}
    (hactive : ∀ p ∈ prepared, s.tools.get? p.1.id = some p.1)
    (hprepared : ∀ p ∈ prepared, prepareCompletedTool cfg p.1 true = .ok p.2)
    (hnodup : (prepared.map fun p => p.1.id).Nodup) :
    wp (commitAll cfg prepared) s
      (fun _ s' out => ∃ new, out = new.flatMap callEvents ∧ Tracks cfg l (calls ++ new) s' ∧
        Ready s' ∧ ∀ id, s'.tools.get? id =
          if id ∈ prepared.map (fun p => p.1.id) then none else s.tools.get? id)
      fun _ _ out => ∃ new, out = new.flatMap callEvents ∧ Emitted cfg l (calls ++ new) := by
  induction prepared generalizing s calls with
  | nil => exact ⟨[], rfl, by rwa [List.append_nil], hready, fun id => rfl⟩
  | cons p rest ih =>
      obtain ⟨hget, hactive⟩ := List.forall_mem_cons.mp hactive
      obtain ⟨hfirst, hprepared⟩ := List.forall_mem_cons.mp hprepared
      rw [List.map_cons] at hnodup
      obtain ⟨hne, hnodup⟩ := List.nodup_cons.mp hnodup
      rw [commitAll, wp_bind]
      refine wp_mono (wp_commitCompletedTool h hget hfirst) ?_ ?_
      · rintro - s₁ out ⟨new, rfl, h₁, hready₁, htools⟩
        have hactive₁ : ∀ q ∈ rest, s₁.tools.get? q.1.id = some q.1 := by
          intro q hq
          have hid : q.1.id ≠ p.1.id := fun heq => hne (heq ▸ List.mem_map_of_mem hq)
          rw [htools, JsMap.get?_delete_of_ne _ hid]
          exact hactive q hq
        refine wp_mono (ih h₁ hready₁ hactive₁ hprepared hnodup) ?_ ?_
        · rintro - s₂ out ⟨more, rfl, h₂, hready₂, hgone⟩
          refine ⟨new ++ more, by rw [List.flatMap_append], by rwa [← List.append_assoc], hready₂,
            fun id => ?_⟩
          rw [hgone, htools, JsMap.get?_delete]
          by_cases hid : id = p.1.id
          · simp [hid]
          · simp only [hid, List.map_cons, List.mem_cons, false_or, if_false]
        · rintro e s₂ out ⟨more, rfl, hemitted⟩
          exact ⟨new ++ more, by rw [List.flatMap_append], by rwa [← List.append_assoc]⟩
      · rintro e s₁ out rfl
        exact ⟨[], rfl, by rw [List.append_nil]; exact h.emitted⟩

/-- The active tools are kept under their ids. -/
theorem Tracks.map_id_values (h : Tracks cfg l calls s) :
    s.tools.values.map ToolState.id = s.tools.keys := by
  rw [JsMap.values, List.map_map]
  refine List.map_congr_left fun entry hmem => ?_
  exact (h.active (JsMap.get?_eq_some_iff.mpr hmem)).id_eq

/-- Recovery leaves no active tool. -/
theorem wp_recoverOrRejectUnfinishedTools (h : Tracks cfg l calls s) (hready : Ready s) :
    wp (recoverOrRejectUnfinishedTools cfg) s
      (fun _ s' out => ∃ new, out = new.flatMap callEvents ∧ Tracks cfg l (calls ++ new) s' ∧
        Ready s' ∧ ∀ id, s'.tools.get? id = none)
      fun _ _ out => ∃ new, out = new.flatMap callEvents ∧ Emitted cfg l (calls ++ new) := by
  simp only [recoverOrRejectUnfinishedTools, wp_bind, wp_get, wp_lift, List.nil_append]
  have hperm := List.mergeSort_perm s.tools.values fun left right => left.index ≤ right.index
  cases hall : prepareAll cfg (s.tools.values.mergeSort fun left right =>
      left.index ≤ right.index) with
  | error e => exact ⟨[], rfl, by rw [List.append_nil]; exact h.emitted⟩
  | ok prepared =>
      obtain ⟨hstates, hprepared⟩ := prepareAll_eq_ok hall
      have hids : (prepared.map fun p => p.1.id).Perm s.tools.keys := by
        rw [← h.map_id_values]
        have hmap : (prepared.map fun p => p.1.id) = (prepared.map Prod.fst).map ToolState.id := by
          rw [List.map_map]
          rfl
        rw [hmap, hstates]
        exact hperm.map _
      have hactive : ∀ p ∈ prepared, s.tools.get? p.1.id = some p.1 := by
        intro p hp
        have hmem : p.1 ∈ s.tools.values :=
          hperm.mem_iff.mp (hstates ▸ List.mem_map_of_mem hp)
        obtain ⟨id, hget⟩ := JsMap.mem_values_iff.mp hmem
        rwa [(h.active hget).id_eq]
      refine wp_mono (wp_commitAll h hready hactive hprepared
        (hids.nodup_iff.mpr s.tools.nodup_keys)) ?_ fun _ _ _ hfail => hfail
      rintro - s' out ⟨new, hevents, htracks, hready', hgone⟩
      refine ⟨new, hevents, htracks, hready', fun id => ?_⟩
      rw [hgone]
      split
      · rfl
      · next hnot => exact JsMap.get?_eq_none_iff.mpr fun hmem => hnot (hids.mem_iff.mpr hmem)

/-- With no tool active or ready, every tool heard of has been emitted. -/
theorem Tracks.all_emitted (h : Tracks cfg l calls s) (hready : Ready s)
    (hnone : ∀ id, s.tools.get? id = none) : calls.map CompletedToolState.id = l.ids := by
  refine h.emitted.ids_prefix.eq_of_length_le ?_
  rw [List.length_map]
  by_contra hlt
  have hlt' : calls.length < l.ids.length := not_le.mp hlt
  rcases h.covered (List.getElem?_eq_getElem hlt') with hself | ⟨c, hc⟩ | ⟨state, hget⟩
  · exact absurd hself (lt_irrefl _)
  · rw [← h.nextToolIndexToEmit_eq, show s.completedTools.get? _ = none from hready] at hc
    cases hc
  · rw [hnone] at hget
    cases hget

end StonePlus.Kiro
