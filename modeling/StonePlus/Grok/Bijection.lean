import StonePlus.Grok.Restore
import StonePlus.Grok.Sent

/-!
# StonePlus.Grok.Bijection

When the tool bridge is a bijection on the declared tools.

The names that are sent come from lookups by name, and an earlier function of a
namespace also answers to its short name.  The names are pairwise distinct
exactly when no function is shadowed in this way; then an answer's call under
the wire name of a tool is restored to that tool.
-/

namespace StonePlus.Grok

open Dsml Streaming Json

variable {sha256 : JsString → Digest} {declared : List DeclaredTool}
  {functions customs extra : List ToolBridgeBinding} {plan : XaiToolBridgePlan}

/-! ## The names of an accepted request -/

theorem Table.nodup (h : Table sha256 declared functions customs extra plan) : declared.Nodup := by
  rw [h.perm.nodup_iff, List.map_append, List.nodup_append]
  refine ⟨?_, ?_, ?_⟩
  · have hnames : ((functions.map toolOf).map (flatName sha256)).Nodup := by
      rw [List.map_map]
      exact h.flatNames
    exact List.Nodup.of_map _ hnames
  · have hnames : ((customs.map toolOf).map DeclaredTool.name).Nodup := by
      rw [List.map_map]
      exact h.customNames
    exact List.Nodup.of_map _ hnames
  · rintro tool hfunction tool' hcustom rfl
    obtain ⟨binding, hbinding, rfl⟩ := List.mem_map.mp hfunction
    obtain ⟨custom, hcustom', heq⟩ := List.mem_map.mp hcustom
    have hkind : custom.sourceType = binding.sourceType := congrArg DeclaredTool.sourceType heq
    rw [h.function hbinding, (h.custom hcustom').1] at hkind
    cases hkind

/-- The lookup of a declared tool succeeds. -/
theorem Table.find_isSome (h : Table sha256 declared functions customs extra plan)
    (htool : tool ∈ declared) :
    (findXaiToolInPlan plan.tools tool.sourceType (flatName sha256 tool)).isSome = true := by
  obtain ⟨binding, hbinding, rfl⟩ := List.mem_map.mp (h.perm.mem_iff.mp htool)
  obtain ⟨found, -, hfound⟩ := Lib.lookup_isSome (fun b hb => answers_self (h.bound b hb)) hbinding
  have hlookup := h.lookup_eq hbinding
  rw [hfound] at hlookup
  exact Option.isSome_iff_exists.mpr ⟨found, hlookup⟩

/-- The tools of an accepted request are sent under the names of their lookups. -/
theorem accepted_table (hprepared : prepareXaiResponsesSource sha256 body = .ok (prepared, plan))
    (hsent : normalizeXaiResponsesRequest prepared model plan = .ok sent) :
    ∃ functions customs extra, Table sha256 (declaredTools body) functions customs extra plan ∧
      sentNames sent = (declaredTools body).map (sentName sha256 plan) := by
  obtain ⟨⟨flat, namespaces⟩, hflat, hprepared⟩ := Lib.bind_eq_ok.mp hprepared
  obtain ⟨⟨built, recorded⟩, hplan, heq⟩ := Lib.bind_eq_ok.mp hprepared
  cases heq
  have hflattens := flattens_flattenXaiNamespaceTools hflat
  obtain ⟨hfor, htools⟩ := planFor_buildXaiToolBridgePlan hflattens.met hplan
  obtain ⟨functions, customs, extra, htable⟩ := table_of_planFor hflattens.met hfor
  have hdeclared : declaredTools body =
      (arrayOfObjects (flat.prop "tools")).filterMap (identify namespaces) :=
    (hflattens.once [] records_empty).1 namespaces id hflattens.met htable.nodup
  rw [hdeclared]
  refine ⟨functions, customs, extra, htable, ?_⟩
  -- each tool is sent under the name of its lookup
  have hnames : ∀ clean : JsonObject → JsonObject, (∀ tool, typeOf (clean tool) = typeOf tool) →
      (∀ tool, nameOf (clean tool) = nameOf tool) →
      bridgedNames (((arrayOfObjects (flat.prop "tools")).map clean).flatMap
        (normalizeXaiNativeTool plan)) =
        ((arrayOfObjects (flat.prop "tools")).filterMap (identify namespaces)).map
          (sentName sha256 plan) := by
    intro clean htype hname
    rw [bridgedNames_flatMap, List.flatMap_map, List.map_filterMap, List.filterMap_eq_flatMap_toList]
    refine List.flatMap_congr fun tool htool => ?_
    refine bridgedNames_normalizeXaiNativeTool hflattens.met (htype tool) (hname tool) ?_
    intro found hfound
    exact htable.find_isSome (List.mem_filterMap.mpr ⟨tool, htool, hfound⟩)
  unfold normalizeXaiResponsesRequest at hsent
  split at hsent
  · cases hsent
  · split at hsent
    · cases hsent
    · split at hsent
      · next hplain =>
        -- nothing is bridged, so there is nothing to send
        cases hsent
        have hnone : plan.tools = [] := by
          have hbridge : plan.requiresResponseBridge = false := by
            simp only [needsRewrite, Bool.not_eq_true', Bool.or_eq_false_iff] at hplain
            exact hplain.1.1.1.1.1
          rw [hfor.bridged, decide_eq_false_iff_not] at hbridge
          exact List.eq_nil_of_length_eq_zero (by omega)
        have hempty : (arrayOfObjects (flat.prop "tools")).filterMap (identify namespaces) = [] := by
          have hperm := htable.perm
          have htools := htable.tools_eq
          rw [hnone] at htools
          obtain ⟨htable', -⟩ := List.append_eq_nil_iff.mp htools.symm
          rw [htable'] at hperm
          exact hperm.eq_nil
        rw [hempty, List.map_nil, sentNames, List.map_eq_nil_iff, List.filter_eq_nil_iff,
          prop_withModel (by decide), htools]
        intro tool htool hbridged
        rw [← isBridged_of_identify namespaces tool] at hbridged
        obtain ⟨found, hfound⟩ := Option.isSome_iff_exists.mp hbridged
        have : found ∈ (arrayOfObjects (flat.prop "tools")).filterMap (identify namespaces) :=
          List.mem_filterMap.mpr ⟨tool, htool, hfound⟩
        rw [hempty] at this
        cases this
      · obtain ⟨input, -, heq⟩ := Lib.bind_eq_ok.mp hsent
        cases heq
        rw [sentNames, prop_withModel (by decide), prop_applyXaiReasoning (by decide), prop_remove,
          if_neg (by decide), arrayOfObjects_rewriteTools]
        have htype : ∀ tool, typeOf (removeFromEntries (js "external_web_access") tool) =
            typeOf tool := by
          intro tool
          rw [typeOf, JsonObject.prop, property?_removeFromEntries (by decide), stringValue_remove]
          rfl
        have hname : ∀ tool, nameOf (removeFromEntries (js "external_web_access") tool) =
            nameOf tool := by
          intro tool
          rw [nameOf, JsonObject.prop, property?_removeFromEntries (by decide), stringValue_remove]
          rfl
        rw [← hnames _ htype hname, bridgedNames, normalizeXaiNativeTools]
        split
        · rw [prop_assign, if_neg (by decide), prop_tools_clean _ _ (by decide),
            arrayOfObjects_remove, htools]
        · rw [prop_tools_clean _ _ (by decide), arrayOfObjects_remove, htools]

/-- The sent names are pairwise distinct if and only if no function is shadowed. -/
theorem Table.nodup_sentNames_iff (h : Table sha256 declared functions customs extra plan) :
    (declared.map (sentName sha256 plan)).Nodup ↔ Unambiguous sha256 declared := by
  have hself : ∀ binding ∈ functions ++ customs, answers sha256 binding binding = true :=
    fun binding hbinding => answers_self (h.bound binding hbinding)
  rw [(h.perm.map (sentName sha256 plan)).nodup_iff, List.map_map, ← h.unshadowed_iff,
    ← Lib.nodup_lookup_iff ToolBridgeBinding.wireName hself h.wires]
  have hmap : ((functions ++ customs).map fun binding =>
      (Lib.lookup (answers sha256) (functions ++ customs) binding).map ToolBridgeBinding.wireName) =
      ((functions ++ customs).map (sentName sha256 plan ∘ toolOf)).map some := by
    rw [List.map_map]
    refine List.map_congr_left fun binding hbinding => ?_
    obtain ⟨found, -, hfound⟩ := Lib.lookup_isSome hself hbinding
    have hlookup := h.lookup_eq hbinding
    rw [hfound] at hlookup ⊢
    change some found.wireName = some (sentName sha256 plan (toolOf binding))
    rw [sentName]
    rw [show findXaiToolInPlan plan.tools (toolOf binding).sourceType
      (flatName sha256 (toolOf binding)) = some found from hlookup]
    rfl
  rw [hmap, List.nodup_map_iff (Option.some_injective JsString)]

/-- Without shadows a tool is sent under the wire name of its binding. -/
theorem Table.sentName_eq (h : Table sha256 declared functions customs extra plan)
    (hclear : Unambiguous sha256 declared) (hbinding : binding ∈ functions ++ customs) :
    sentName sha256 plan (toolOf binding) = binding.wireName := by
  have hself : ∀ binding ∈ functions ++ customs, answers sha256 binding binding = true :=
    fun binding hbinding => answers_self (h.bound binding hbinding)
  have hlookup := h.lookup_eq hbinding
  rw [Lib.lookup_of_unshadowed (h.unshadowed_iff.mpr hclear) hself binding hbinding] at hlookup
  rw [sentName]
  rw [show findXaiToolInPlan plan.tools (toolOf binding).sourceType
    (flatName sha256 (toolOf binding)) = some binding from hlookup]
  rfl

/-! ## Lookups by wire name -/

theorem Table.findByWire (h : Table sha256 declared functions customs extra plan)
    (hbinding : binding ∈ functions ++ customs) :
    findXaiToolByWire plan.tools binding.wireName = some binding := by
  have hmatch : (binding.wireName == binding.wireName && binding.declared != some false) = true := by
    rw [(h.bound binding hbinding).declared]
    simp
  unfold findXaiToolByWire
  rw [h.tools_eq, List.find?_append]
  have hsome : ((functions ++ customs).find? fun candidate =>
      candidate.wireName == binding.wireName && candidate.declared != some false).isSome = true :=
    List.find?_isSome.mpr ⟨binding, hbinding, hmatch⟩
  obtain ⟨found, hfound⟩ := Option.isSome_iff_exists.mp hsome
  have hsame : found.wireName = binding.wireName := by
    have := List.find?_some hfound
    simp only [Bool.and_eq_true, beq_iff_eq] at this
    exact this.1
  have heq : found = binding :=
    List.inj_on_of_nodup_map h.wires (List.mem_of_find?_eq_some hfound) hbinding hsame
  rw [hfound, Option.some_or, heq]

/-- A declared wire name is that of a binding of the table. -/
theorem Table.mem_of_findByWire (h : Table sha256 declared functions customs extra plan)
    (hfound : findXaiToolByWire plan.tools name = some binding) :
    binding ∈ functions ++ customs ∧ binding.wireName = name := by
  have hmatch := List.find?_some hfound
  simp only [Bool.and_eq_true, beq_iff_eq, bne_iff_ne, ne_eq] at hmatch
  have hmem := List.mem_of_find?_eq_some hfound
  rw [h.tools_eq] at hmem
  rcases List.mem_append.mp hmem with hmem | hmem
  · exact ⟨hmem, hmatch.1⟩
  · exact absurd (h.undeclared binding hmem) hmatch.2

/-! ## Restored calls -/

/-- The arguments of a call wrap an input: as text or as an object, and with
nothing else. -/
def Wraps (arguments : Option Json) (input : JsString) : Prop :=
  ∃ fields : JsonObject, (arguments = some (.object fields) ∨
      ∃ text, arguments = some (.string text) ∧ parse text = some (.object fields)) ∧
    fields.prop "input" = some (.string input) ∧ ∀ e ∈ fields, e.1 = js "input"

theorem wrappedInput_iff :
    wrappedInput path parsed = .ok input ↔ ∃ fields : JsonObject, parsed = some (.object fields) ∧
      fields.prop "input" = some (.string input) ∧ ∀ e ∈ fields, e.1 = js "input" := by
  unfold wrappedInput
  dsimp only
  constructor
  · intro h
    split at h
    · cases h
    · next fields hfields =>
      split at h
      · next found hfound =>
        split at h
        · cases h
        · next hall =>
          cases h
          refine ⟨fields, ?_, hfound, by simpa using hall⟩
          unfold objectValue at hfields
          split at hfields
          · cases hfields
            rfl
          · cases hfields
      · cases h
  · rintro ⟨fields, rfl, hinput, hall⟩
    have hany : (fields.any (·.1 != js "input")) = false := by
      simpa using hall
    simp only [objectValue, hinput, hany]
    rfl

theorem parseXaiCustomWrapper_iff :
    parseXaiCustomWrapper arguments path = .ok input ↔ Wraps arguments input := by
  unfold parseXaiCustomWrapper Wraps
  split
  · next text =>
    constructor
    · intro h
      split at h
      · cases h
      · next parsed hparsed =>
        obtain ⟨fields, hfields, hinput⟩ := wrappedInput_iff.mp h
        cases hfields
        exact ⟨fields, .inr ⟨text, rfl, hparsed⟩, hinput⟩
    · rintro ⟨fields, hfields | ⟨text', htext, hparsed⟩, hinput⟩
      · cases hfields
      · cases htext
        rw [hparsed]
        exact wrappedInput_iff.mpr ⟨fields, rfl, hinput⟩
  · next hnot =>
    rw [wrappedInput_iff]
    constructor
    · rintro ⟨fields, hfields, hinput⟩
      exact ⟨fields, .inl hfields, hinput⟩
    · rintro ⟨fields, hfields | ⟨text, htext, -⟩, hinput⟩
      · exact ⟨fields, hfields, hinput⟩
      · exact absurd htext (hnot text)

/-- A call of a tool, restored. -/
structure RestoredCall (tool : DeclaredTool) (item restored : JsonObject) : Prop where
  type : typeOf restored =
    if tool.sourceType = .custom then js "custom_tool_call" else js "function_call"
  nameSpace : restored.prop "namespace" = tool.nameSpace.map .string
  name : nameOf restored = tool.name
  callId : restored.prop "call_id" = some (.string (callIdOf item))
  arguments : tool.sourceType ≠ .custom → restored.prop "arguments" = item.prop "arguments"
  input : tool.sourceType = .custom →
    ∃ input, Wraps (item.prop "arguments") input ∧ restored.prop "input" = some (.string input)

/-- An item of an answer, restored: a call under the wire name of a tool becomes
a call of the tool, and everything else stays. -/
def RestoredAs (wire : DeclaredTool → JsString) (tools : List DeclaredTool)
    (item restored : JsonObject) : Prop :=
  if isFunctionCall item = true then
    ∃ tool ∈ tools, wire tool = nameOf item ∧ RestoredCall tool item restored
  else restored = item

/-- An answer the bridge accepts: new and distinct call ids, no more calls than
allowed, under wire names of tools, and the inputs of custom tools wrapped. -/
structure Answerable (plan : XaiToolBridgePlan) (wire : DeclaredTool → JsString)
    (tools : List DeclaredTool) (items : List JsonObject) : Prop where
  bridged : ∀ item ∈ items, typeOf item ≠ js "custom_tool_call"
  parallel : plan.parallelToolCalls = some false → (items.filter isFunctionCall).length ≤ 1
  identified : ∀ item ∈ items, isFunctionCall item = true → callIdOf item ≠ []
  distinct : ((items.filter isFunctionCall).map callIdOf).Nodup
  fresh : ∀ item ∈ items, isFunctionCall item = true →
    callIdOf item ∉ plan.calls.map ToolCallBridgeBinding.callId
  known : ∀ item ∈ items, isFunctionCall item = true → ∃ tool ∈ tools, wire tool = nameOf item ∧
    (tool.sourceType = .custom → ∃ input, Wraps (item.prop "arguments") input)

/-- The bridge restores exactly the calls under wire names of tools. -/
structure Restores (plan : XaiToolBridgePlan) (wire : DeclaredTool → JsString)
    (tools : List DeclaredTool) : Prop where
  exact : ∀ answer items restored plan', answer.prop "output" = some (.array items) →
    restoreXaiResponsesToolCalls answer plan = .ok (restored, plan') →
    List.Forall₂ (RestoredAs wire tools) (arrayOfObjects (some (.array items)))
      (arrayOfObjects (restored.prop "output"))
  accepts : ∀ answer items, answer.prop "output" = some (.array items) →
    Answerable plan wire tools (arrayOfObjects (some (.array items))) →
    ∃ restored, restoreXaiResponsesToolCalls answer plan = .ok restored
  rejects : ∀ answer items, answer.prop "output" = some (.array items) →
    ∀ item ∈ arrayOfObjects (some (.array items)), isFunctionCall item = true →
    (∀ tool ∈ tools, wire tool ≠ nameOf item) →
    ∃ failure, restoreXaiResponsesToolCalls answer plan = .error failure

/-! ## The loop over the output -/

theorem isFunctionCall_iff : isFunctionCall item = true ↔ typeOf item = js "function_call" := by
  simp [isFunctionCall]

/-- A call of a tool of the table is restored to the tool. -/
theorem Table.restoredFunctionCall (h : Table sha256 declared functions customs extra plan)
    (hbinding : binding ∈ functions ++ customs) (hitem : typeOf item = js "function_call")
    (hkind : binding.sourceType ≠ .custom) :
    RestoredCall (toolOf binding) item (restoredFunctionCall item binding (callIdOf item)) := by
  have hnamespace : given binding.sourceNamespace = binding.sourceNamespace := by
    cases hname : binding.sourceNamespace with
    | none => rfl
    | some nameSpace =>
        obtain ⟨hne, -⟩ := (h.bound binding hbinding).namespaced nameSpace hname
        simp [given, Option.filter_some, hne]
  have hread : ∀ key : String, js "namespace" ≠ js key →
      (Grok.restoredFunctionCall item binding (callIdOf item)).prop key =
        (assign (assign (remove item "namespace") "call_id" (.string (callIdOf item))) "name"
          (.string binding.sourceName)).prop key := by
    intro key hkey
    unfold Grok.restoredFunctionCall
    dsimp only
    split
    · rw [prop_assign, if_neg hkey]
    · rfl
  constructor
  · rw [if_neg (show (toolOf binding).sourceType ≠ .custom from hkind), typeOf, hread _ (by decide),
      prop_assign, if_neg (by decide), prop_assign, if_neg (by decide), prop_remove,
      if_neg (by decide)]
    exact hitem
  · unfold Grok.restoredFunctionCall
    dsimp only
    rw [hnamespace]
    cases hname : binding.sourceNamespace with
    | none =>
        rw [prop_assign, if_neg (by decide), prop_assign, if_neg (by decide), prop_remove,
          if_pos rfl, toolOf, hname]
        rfl
    | some nameSpace =>
        rw [prop_assign, if_pos rfl, toolOf, hname]
        rfl
  · rw [nameOf, hread _ (by decide), prop_assign, if_pos rfl]
    rfl
  · rw [hread _ (by decide), prop_assign, if_neg (by decide), prop_assign, if_pos rfl]
  · intro _
    rw [hread _ (by decide), prop_assign, if_neg (by decide), prop_assign, if_neg (by decide),
      prop_remove, if_neg (by decide)]
  · intro hcustom
    exact absurd hcustom hkind

theorem Table.restoredCustomCall (h : Table sha256 declared functions customs extra plan)
    (hbinding : binding ∈ functions ++ customs) (hkind : binding.sourceType = .custom)
    (hinput : Wraps (item.prop "arguments") input) :
    RestoredCall (toolOf binding) item (restoredCustomCall item binding (callIdOf item) input) := by
  have hplain : binding.sourceNamespace = none := by
    rcases List.mem_append.mp hbinding with hmem | hmem
    · rw [h.function hmem] at hkind
      cases hkind
    · exact (h.custom hmem).2
  unfold Grok.restoredCustomCall
  constructor
  · rw [if_pos (show (toolOf binding).sourceType = .custom from hkind), typeOf, prop_assign,
      if_neg (by decide), prop_assign, if_neg (by decide), prop_assign, if_neg (by decide),
      prop_assign, if_pos rfl]
    rfl
  · rw [prop_assign, if_neg (by decide), prop_assign, if_neg (by decide), prop_assign,
      if_neg (by decide), prop_assign, if_neg (by decide), prop_remove, if_pos rfl, toolOf, hplain]
    rfl
  · rw [nameOf, prop_assign, if_neg (by decide), prop_assign, if_pos rfl]
    rfl
  · rw [prop_assign, if_neg (by decide), prop_assign, if_neg (by decide), prop_assign, if_pos rfl]
  · intro hnot
    exact absurd hkind hnot
  · intro _
    exact ⟨input, hinput, by rw [prop_assign, if_pos rfl]⟩

theorem Table.restoreItem (h : Table sha256 declared functions customs extra plan)
    (hclear : Unambiguous sha256 declared)
    (hrestored : restoreItem plan calls index item = .ok (restored, calls')) :
    RestoredAs (sentName sha256 plan) declared item restored := by
  unfold RestoredAs
  unfold Grok.restoreItem at hrestored
  by_cases hcall : typeOf item = js "function_call"
  · rw [if_pos (isFunctionCall_iff.mpr hcall)]
    rw [if_neg (not_not_intro hcall)] at hrestored
    split at hrestored
    · cases hrestored
    · next binding hfound =>
      obtain ⟨hbinding, hwire⟩ := h.mem_of_findByWire hfound
      refine ⟨toolOf binding, ?_, (h.sentName_eq hclear hbinding).trans hwire, ?_⟩
      · exact h.perm.mem_iff.mpr (List.mem_map.mpr ⟨binding, hbinding, rfl⟩)
      · dsimp only at hrestored
        split at hrestored
        · cases hrestored
        · obtain ⟨remembered, -, hrestored⟩ := Lib.bind_eq_ok.mp hrestored
          split at hrestored
          · next hkind =>
            obtain ⟨input, hinput, heq⟩ := Lib.bind_eq_ok.mp hrestored
            cases heq
            exact h.restoredCustomCall hbinding hkind (parseXaiCustomWrapper_iff.mp hinput)
          · next hkind =>
            cases hrestored
            exact h.restoredFunctionCall hbinding hcall hkind
  · rw [if_neg (isFunctionCall_iff.not.mpr hcall)]
    rw [if_pos hcall] at hrestored
    cases hrestored
    rfl

theorem Table.restoreItems (h : Table sha256 declared functions customs extra plan)
    (hclear : Unambiguous sha256 declared)
    (hrestored : restoreItems plan calls index items = .ok (restored, calls')) :
    List.Forall₂ (RestoredAs (sentName sha256 plan) declared) items restored := by
  induction items generalizing calls index restored with
  | nil =>
      cases hrestored
      exact .nil
  | cons item items ih =>
      obtain ⟨⟨first, calls₁⟩, hfirst, hrestored⟩ := Lib.bind_eq_ok.mp hrestored
      obtain ⟨⟨rest, calls₂⟩, hrest, heq⟩ := Lib.bind_eq_ok.mp hrestored
      cases heq
      exact .cons (h.restoreItem hclear hfirst) (ih hrest)

theorem checkCallIds_ok (hsome : ∀ call ∈ calls, callIdOf call ≠ [])
    (hdistinct : (calls.map callIdOf).Nodup) (hfresh : ∀ call ∈ calls, callIdOf call ∉ used) :
    checkCallIds path used index calls = .ok () := by
  induction calls generalizing used index with
  | nil => rfl
  | cons call calls ih =>
      obtain ⟨hnot, hdistinct⟩ := List.nodup_cons.mp hdistinct
      unfold checkCallIds
      dsimp only
      rw [if_neg (hsome call List.mem_cons_self), if_neg (hfresh call List.mem_cons_self)]
      refine ih (fun other hother => hsome other (List.mem_cons_of_mem call hother)) hdistinct ?_
      intro other hother hmem
      rcases List.mem_cons.mp hmem with hsame | hmem
      · exact hnot (List.mem_map.mpr ⟨other, hother, hsame⟩)
      · exact hfresh other (List.mem_cons_of_mem call hother) hmem

/-- A call id that is new is remembered. -/
theorem rememberXaiCallBinding_new (h : binding.callId ∉ calls.map ToolCallBridgeBinding.callId) :
    rememberXaiCallBinding calls binding = .ok (calls ++ [binding]) := by
  have hnone : (calls.find? fun call => call.callId == binding.callId) = none := by
    rw [List.find?_eq_none]
    intro call hcall hsame
    exact h (List.mem_map.mpr ⟨call, hcall, by simpa using hsame⟩)
  rw [rememberXaiCallBinding, hnone]

/-- An item of an answerable answer is restored, and its call id remembered. -/
theorem Table.restoreItem_ok (h : Table sha256 declared functions customs extra plan)
    (hclear : Unambiguous sha256 declared) (index : Nat)
    (hsome : isFunctionCall item = true → callIdOf item ≠ [])
    (hfresh : isFunctionCall item = true → callIdOf item ∉ calls.map ToolCallBridgeBinding.callId)
    (hknown : isFunctionCall item = true →
      ∃ tool ∈ declared, sentName sha256 plan tool = nameOf item ∧
        (tool.sourceType = .custom → ∃ input, Wraps (item.prop "arguments") input)) :
    ∃ restored calls', Grok.restoreItem plan calls index item = .ok (restored, calls') ∧
      ∀ id ∈ calls'.map ToolCallBridgeBinding.callId,
        id ∈ calls.map ToolCallBridgeBinding.callId ∨ isFunctionCall item = true ∧ id = callIdOf item := by
  unfold Grok.restoreItem
  by_cases hcall : typeOf item = js "function_call"
  · have hcall' := isFunctionCall_iff.mpr hcall
    obtain ⟨tool, htool, hwire, hinput⟩ := hknown hcall'
    obtain ⟨binding, hbinding, rfl⟩ := List.mem_map.mp (h.perm.mem_iff.mp htool)
    rw [h.sentName_eq hclear hbinding] at hwire
    rw [if_neg (not_not_intro hcall), ← hwire, h.findByWire hbinding]
    dsimp only
    rw [if_neg (hsome hcall'), rememberXaiCallBinding_new (hfresh hcall')]
    have hids : ∀ id ∈ (calls ++ [restoredBinding binding (callIdOf item)]).map
          ToolCallBridgeBinding.callId,
        id ∈ calls.map ToolCallBridgeBinding.callId ∨
          isFunctionCall item = true ∧ id = callIdOf item := by
      intro id hid
      rw [List.map_append, List.mem_append] at hid
      rcases hid with hid | hid
      · exact .inl hid
      · exact .inr ⟨hcall', List.mem_singleton.mp hid⟩
    by_cases hkind : binding.sourceType = .custom
    · obtain ⟨input, hwraps⟩ := hinput hkind
      have hparse : parseXaiCustomWrapper (item.prop "arguments")
          (indexed "output" index ".arguments") = .ok input := parseXaiCustomWrapper_iff.mpr hwraps
      refine ⟨Grok.restoredCustomCall item binding (callIdOf item) input, _, ?_, hids⟩
      change (if binding.sourceType = .custom then _ else _) = _
      rw [if_pos hkind, hparse]
      rfl
    · refine ⟨Grok.restoredFunctionCall item binding (callIdOf item), _, ?_, hids⟩
      change (if binding.sourceType = .custom then _ else _) = _
      rw [if_neg hkind]
      rfl
  · rw [if_pos hcall]
    exact ⟨item, calls, rfl, fun id hid => .inl hid⟩

theorem Table.restoreItems_ok (h : Table sha256 declared functions customs extra plan)
    (hclear : Unambiguous sha256 declared) (index : Nat)
    (hsome : ∀ item ∈ items, isFunctionCall item = true → callIdOf item ≠ [])
    (hdistinct : ((items.filter isFunctionCall).map callIdOf).Nodup)
    (hfresh : ∀ item ∈ items, isFunctionCall item = true →
      callIdOf item ∉ calls.map ToolCallBridgeBinding.callId)
    (hknown : ∀ item ∈ items, isFunctionCall item = true →
      ∃ tool ∈ declared, sentName sha256 plan tool = nameOf item ∧
        (tool.sourceType = .custom → ∃ input, Wraps (item.prop "arguments") input)) :
    ∃ restored, Grok.restoreItems plan calls index items = .ok restored := by
  induction items generalizing calls index with
  | nil => exact ⟨_, rfl⟩
  | cons item items ih =>
      obtain ⟨restored, calls', hitem, hids⟩ := h.restoreItem_ok hclear index
        (hsome item List.mem_cons_self) (hfresh item List.mem_cons_self)
        (hknown item List.mem_cons_self)
      have hothers : ∀ other ∈ items, isFunctionCall other = true →
          callIdOf other ∉ calls'.map ToolCallBridgeBinding.callId := by
        intro other hother hcall hmem
        rcases hids _ hmem with hold | ⟨hitemCall, hsame⟩
        · exact hfresh other (List.mem_cons_of_mem item hother) hcall hold
        · rw [List.filter_cons_of_pos hitemCall, List.map_cons] at hdistinct
          refine (List.nodup_cons.mp hdistinct).1 ?_
          exact List.mem_map.mpr ⟨other, List.mem_filter.mpr ⟨hother, hcall⟩, hsame⟩
      have hdistinct' : ((items.filter isFunctionCall).map callIdOf).Nodup := by
        refine hdistinct.sublist (List.Sublist.map _ ?_)
        exact (List.sublist_cons_self item items).filter _
      obtain ⟨rest, hrest⟩ := ih (index + 1)
        (fun other hother => hsome other (List.mem_cons_of_mem item hother)) hdistinct' hothers
        (fun other hother => hknown other (List.mem_cons_of_mem item hother))
      refine ⟨(restored :: rest.1, rest.2), ?_⟩
      rw [Grok.restoreItems, hitem]
      change (Grok.restoreItems plan calls' (index + 1) items >>= fun x => pure (restored :: x.1, x.2)) = _
      rw [hrest]
      rfl

/-! ## The bridge -/

theorem Table.exact (h : Table sha256 declared functions customs extra plan)
    (hclear : Unambiguous sha256 declared) (houtput : answer.prop "output" = some (.array items))
    (hrestored : restoreXaiResponsesToolCalls answer plan = .ok result) :
    List.Forall₂ (RestoredAs (sentName sha256 plan) declared) (arrayOfObjects (some (.array items)))
      (arrayOfObjects (result.1.prop "output")) := by
  unfold restoreXaiResponsesToolCalls at hrestored
  rw [houtput] at hrestored
  dsimp only at hrestored
  split at hrestored
  · cases hrestored
  · obtain ⟨_, -, hrestored⟩ := Lib.bind_eq_ok.mp hrestored
    obtain ⟨⟨output, calls⟩, hitems, heq⟩ := Lib.bind_eq_ok.mp hrestored
    cases heq
    rw [prop_assign, if_pos rfl, arrayOfObjects_objects]
    exact h.restoreItems hclear hitems

theorem Table.restores (h : Table sha256 declared functions customs extra plan)
    (hclear : Unambiguous sha256 declared) : Restores plan (sentName sha256 plan) declared where
  exact _ _ _ _ houtput hrestored := h.exact hclear houtput hrestored
  accepts answer items houtput hanswer := by
    have hbridged : (arrayOfObjects (some (.array items))).findIdx?
        (fun item => typeOf item == js "custom_tool_call") = none := by
      rw [List.findIdx?_eq_none_iff]
      intro item hitem
      simpa using hanswer.bridged item hitem
    have hids : validateXaiResponseCallIds
        ((arrayOfObjects (some (.array items))).filter isFunctionCall) plan "output" = .ok () := by
      unfold validateXaiResponseCallIds
      rw [if_neg]
      · refine checkCallIds_ok ?_ hanswer.distinct ?_
        · intro call hcall
          obtain ⟨hmem, hfunction⟩ := List.mem_filter.mp hcall
          exact hanswer.identified call hmem hfunction
        · intro call hcall
          obtain ⟨hmem, hfunction⟩ := List.mem_filter.mp hcall
          exact hanswer.fresh call hmem hfunction
      · rintro ⟨hparallel, hmany⟩
        have := hanswer.parallel hparallel
        omega
    obtain ⟨restored, hrestored⟩ := h.restoreItems_ok hclear 0 hanswer.identified
      hanswer.distinct hanswer.fresh hanswer.known
    unfold restoreXaiResponsesToolCalls
    rw [houtput]
    dsimp only
    rw [hbridged]
    dsimp only
    rw [hids]
    change ∃ r, (Grok.restoreItems plan plan.calls 0 (arrayOfObjects (some (.array items))) >>= fun x =>
      pure (assign answer "output" (.array (x.1.map .object)), { plan with calls := x.2 })) = .ok r
    rw [hrestored]
    exact ⟨_, rfl⟩
  rejects answer items houtput item hitem hcall hunknown := by
    cases hrestored : restoreXaiResponsesToolCalls answer plan with
    | error failure => exact ⟨failure, rfl⟩
    | ok result =>
        exfalso
        have hexact := h.exact hclear houtput hrestored
        obtain ⟨i, hi, hget⟩ := List.mem_iff_getElem.mp hitem
        have hlength := hexact.length_eq
        have hrelated := List.forall₂_iff_get.mp hexact |>.2 i hi (hlength ▸ hi)
        unfold RestoredAs at hrelated
        rw [List.get_eq_getElem, hget, if_pos hcall] at hrelated
        obtain ⟨tool, htool, hwire, -⟩ := hrelated
        exact hunknown tool htool hwire

/-- The tool bridge is a bijection: every declared tool is sent under a safe name
of its own, and a call under this name, and no other, is restored to the tool. -/
def BridgeBijection (body sent : JsonObject) (plan : XaiToolBridgePlan) : Prop :=
  ∃ wire : DeclaredTool → JsString, sentNames sent = (declaredTools body).map wire ∧
    (sentNames sent).Nodup ∧ (∀ name ∈ sentNames sent, safeXaiWireName name = true) ∧
    Restores plan wire (declaredTools body)

/-- The bridge of an accepted request is a bijection if and only if no function
of a namespace shadows a function that is declared after it. -/
theorem bridgeBijection_iff (sha256 : JsString → Digest) {body prepared sent : JsonObject}
    {plan : XaiToolBridgePlan} {model : JsString}
    (hprepared : prepareXaiResponsesSource sha256 body = .ok (prepared, plan))
    (hsent : normalizeXaiResponsesRequest prepared model plan = .ok sent) :
    BridgeBijection body sent plan ↔ Unambiguous sha256 (declaredTools body) := by
  obtain ⟨functions, customs, extra, htable, hnames⟩ := accepted_table hprepared hsent
  constructor
  · rintro ⟨-, -, hnodup, -⟩
    rw [hnames] at hnodup
    exact htable.nodup_sentNames_iff.mp hnodup
  · intro hclear
    refine ⟨sentName sha256 plan, hnames, ?_, ?_, htable.restores hclear⟩
    · rw [hnames]
      exact htable.nodup_sentNames_iff.mpr hclear
    · intro name hname
      rw [hnames] at hname
      obtain ⟨tool, htool, rfl⟩ := List.mem_map.mp hname
      obtain ⟨binding, hbinding, rfl⟩ := List.mem_map.mp (htable.perm.mem_iff.mp htool)
      rw [htable.sentName_eq hclear hbinding]
      exact (htable.bound binding hbinding).safe

/-- A function, as a request declares it. -/
def functionTool (name : String) : Json :=
  .object [(js "type", .string (js "function")), (js "name", .string (js name))]

/-- A namespace with one function. -/
def namespaceTool (nameSpace name : String) : Json :=
  .object [(js "type", .string (js "namespace")), (js "name", .string (js nameSpace)),
    (js "tools", .array [functionTool name])]

/-- A function before a namespace that has a function of the same name. -/
def plainThenNamespaced : JsonObject :=
  [(js "tools", .array [functionTool "run", namespaceTool "shell" "run",
    namespaceTool "python" "run"])]

/-- A function after a namespace that has a function of the same name. -/
def namespacedThenPlain : JsonObject :=
  [(js "tools", .array [namespaceTool "shell" "run", functionTool "run"])]

theorem plain_function_first_bridged :
    ∃ prepared plan sent,
      prepareXaiResponsesSource (fun _ => ⟨List.replicate 32 0, rfl⟩) plainThenNamespaced =
        .ok (prepared, plan) ∧
      normalizeXaiResponsesRequest prepared (js "grok-4") plan = .ok sent ∧
      BridgeBijection plainThenNamespaced sent plan := by
  let zeros : JsString → Digest := fun _ => ⟨List.replicate 32 0, rfl⟩
  have hrun : (prepareXaiResponsesSource zeros plainThenNamespaced >>= fun x =>
      normalizeXaiResponsesRequest x.1 (js "grok-4") x.2 >>= fun sent =>
        pure (sentNames sent)) =
      .ok [js "run", js "shell__run", js "python__run"] := by decide +kernel
  obtain ⟨⟨prepared, plan⟩, hprepared, hrun⟩ := Lib.bind_eq_ok.mp hrun
  obtain ⟨sent, hsent, -⟩ := Lib.bind_eq_ok.mp hrun
  refine ⟨prepared, plan, sent, hprepared, hsent, ?_⟩
  exact (bridgeBijection_iff zeros hprepared hsent).mpr (by decide +kernel)

/-- A function is sent under the name of the namespaced function before it. -/
theorem shadowed_function_sent_twice :
    ∃ prepared plan sent,
      prepareXaiResponsesSource (fun _ => ⟨List.replicate 32 0, rfl⟩) namespacedThenPlain =
        .ok (prepared, plan) ∧
      normalizeXaiResponsesRequest prepared (js "grok-4") plan = .ok sent ∧
      ¬BridgeBijection namespacedThenPlain sent plan := by
  let zeros : JsString → Digest := fun _ => ⟨List.replicate 32 0, rfl⟩
  have hrun : (prepareXaiResponsesSource zeros namespacedThenPlain >>= fun x =>
      normalizeXaiResponsesRequest x.1 (js "grok-4") x.2 >>= fun sent =>
        pure (sentNames sent)) =
      .ok [js "shell__run", js "shell__run"] := by decide +kernel
  obtain ⟨⟨prepared, plan⟩, hprepared, hrun⟩ := Lib.bind_eq_ok.mp hrun
  obtain ⟨sent, hsent, hnames⟩ := Lib.bind_eq_ok.mp hrun
  refine ⟨prepared, plan, sent, hprepared, hsent, ?_⟩
  rintro ⟨-, -, hnodup, -⟩
  have hnames : sentNames sent = [js "shell__run", js "shell__run"] := by
    injection hnames
  rw [hnames] at hnodup
  exact absurd hnodup (by decide)

end StonePlus.Grok
