import StonePlus.Grok.Bindings
import StonePlus.Grok.Request
import StonePlus.Lib.FirstMatch

/-!
# StonePlus.Grok.Sent

The names under which a normalized request declares its tools.
-/

namespace StonePlus.Grok

open Dsml Streaming Json

variable {sha256 : JsString → Digest} {namespaces : JsMap JsString XaiNamespaceBinding}

/-- The names of the functions and custom tools of a request. -/
def sentNames (request : JsonObject) : List JsString :=
  ((arrayOfObjects (request.prop "tools")).filter isBridged).map nameOf

/-- The wire name that a lookup under the flat name of a tool gives. -/
def sentName (sha256 : JsString → Digest) (plan : XaiToolBridgePlan) (tool : DeclaredTool) :
    JsString :=
  ((findXaiToolInPlan plan.tools tool.sourceType (flatName sha256 tool)).map
    ToolBridgeBinding.wireName).getD []

/-! ## The tools of a request -/

/-- A tool without the private field is of the same type. -/
theorem property?_removeFromEntries (h : key ≠ field) (object : JsonObject) :
    property? (removeFromEntries field object) key =
      (property? object key).map (removeXaiFieldRecursive field) := by
  induction object with
  | nil => rfl
  | cons e object ih =>
      obtain ⟨k, value⟩ := e
      rw [removeFromEntries, property?_cons]
      split
      · next hk =>
        rw [if_neg (fun hkey => h (hkey.symm.trans hk)), ih]
      · rw [property?_cons, ih]
        split <;> rfl

theorem stringValue_remove (field : JsString) (value : Option Json) (fallback : JsString) :
    stringValue (value.map (removeXaiFieldRecursive field)) fallback = stringValue value fallback := by
  match value with
  | none | some .null | some (.bool _) | some (.number _) | some (.string _) | some (.array _) |
    some (.object _) => rfl

theorem removeFromItems_eq (field : JsString) (items : List Json) :
    removeFromItems field items = items.map (removeXaiFieldRecursive field) := by
  induction items with
  | nil => rfl
  | cons value items ih => rw [removeFromItems, ih, List.map_cons]

theorem arrayOfObjects_remove (field : JsString) (value : Option Json) :
    arrayOfObjects (value.map (removeXaiFieldRecursive field)) =
      (arrayOfObjects value).map (removeFromEntries field) := by
  match value with
  | none | some .null | some (.bool _) | some (.number _) | some (.string _) | some (.object _) => rfl
  | some (.array items) =>
      simp only [Option.map_some, removeXaiFieldRecursive, removeFromItems_eq, arrayOfObjects,
        arrayValue, List.filterMap_map, List.map_filterMap]
      apply List.filterMap_congr
      intro item _
      cases item <;> rfl

theorem prop_removeAll (h : ∀ field ∈ fields, js field ≠ js key) (object : JsonObject) :
    (removeAll object fields).prop key = object.prop key := by
  unfold removeAll
  induction fields generalizing object with
  | nil => rfl
  | cons field fields ih =>
      obtain ⟨hfield, hfields⟩ := List.forall_mem_cons.mp h
      rw [List.foldl_cons, ih hfields, prop_remove, if_neg hfield]

theorem prop_withModel (h : js "model" ≠ js key) (body : JsonObject) (model : JsString) :
    (withModel body model).prop key = body.prop key := by
  unfold withModel
  split
  · rfl
  · rw [prop_assign, if_neg h]

theorem prop_applyXaiReasoning (h : js "reasoning_effort" ≠ js key) (body output : JsonObject) :
    (applyXaiReasoning body output).prop key = output.prop key := by
  unfold applyXaiReasoning
  dsimp only
  split
  · rw [prop_assign, if_neg h]
  · split
    · rw [prop_assign, if_neg h]
    · split
      · rw [prop_assign, if_neg h]
      · rfl

/-- The tools of the rewritten body. -/
theorem arrayOfObjects_rewriteTools (plan : XaiToolBridgePlan) (body : JsonObject) :
    arrayOfObjects ((rewriteTools plan body).prop "tools") =
      normalizeXaiNativeTools plan (body.prop "tools") := by
  unfold rewriteTools
  dsimp only
  split
  · next hnone =>
    rw [hnone]
    have hrest : (removeAll (remove body "tools") ["tool_choice", "parallel_tool_calls"]).prop "tools" =
        (remove body "tools").prop "tools" := prop_removeAll (by decide) _
    change arrayOfObjects ((removeAll (remove body "tools")
      ["tool_choice", "parallel_tool_calls"]).prop "tools") = []
    rw [hrest, prop_remove, if_pos rfl]
    rfl
  · split
    · rw [prop_remove, if_neg (by decide), prop_assign, if_pos rfl, arrayOfObjects_objects]
    · rw [prop_assign, if_neg (by decide), prop_assign, if_pos rfl, arrayOfObjects_objects]

/-- The tools of the cleaned body are the tools of the body, cleaned. -/
theorem prop_tools_clean (body : JsonObject) (field : JsString) (hfield : js "tools" ≠ field)
    (grok45 : Bool) :
    JsonObject.prop (if grok45 = true then
        removeAll (removeFromEntries field (removeAll body stateFields)) samplingFields
      else removeFromEntries field (removeAll body stateFields)) "tools" =
      (body.prop "tools").map (removeXaiFieldRecursive field) := by
  have hclean : (removeFromEntries field (removeAll body stateFields)).prop "tools" =
      (body.prop "tools").map (removeXaiFieldRecursive field) := by
    rw [JsonObject.prop, property?_removeFromEntries hfield]
    exact congrArg _ (prop_removeAll (by decide) body)
  split
  · rw [prop_removeAll (by decide), hclean]
  · exact hclean

/-! ## Names -/

/-- The names of the functions and custom tools among some tools. -/
def bridgedNames (tools : List JsonObject) : List JsString := (tools.filter isBridged).map nameOf

theorem bridgedNames_flatMap (f : JsonObject → List JsonObject) (tools : List JsonObject) :
    bridgedNames (tools.flatMap f) = tools.flatMap fun tool => bridgedNames (f tool) := by
  unfold bridgedNames
  rw [List.filter_flatMap, List.map_flatMap]

/-- A bridged tool is identified under its own name. -/
theorem flatName_identify (hmet : Met sha256 occupied namespaces)
    (h : identify namespaces tool = some declared) : flatName sha256 declared = nameOf tool ∧
      (typeOf tool = js "function" ∧ declared.sourceType = .function ∨
        typeOf tool = js "custom" ∧ declared.sourceType = .custom ∧ declared.nameSpace = none) := by
  unfold identify at h
  split at h
  · next htype =>
    split at h
    · next found hfound =>
      cases h
      exact ⟨(hmet.wire hfound).2.symm, .inl ⟨htype, rfl⟩⟩
    · cases h
      exact ⟨rfl, .inl ⟨htype, rfl⟩⟩
  · split at h
    · next htype =>
      cases h
      exact ⟨rfl, .inr ⟨htype, rfl, rfl⟩⟩
    · cases h

theorem isBridged_of_identify (namespaces : JsMap JsString XaiNamespaceBinding) (tool : JsonObject) :
    (identify namespaces tool).isSome = isBridged tool := by
  unfold identify isBridged
  by_cases hfunction : typeOf tool = js "function"
  · rw [if_pos hfunction]
    cases namespaces.get? (nameOf tool) <;> simp [hfunction]
  · rw [if_neg hfunction]
    by_cases hcustom : typeOf tool = js "custom"
    · simp [hcustom]
    · simp [hfunction, hcustom]

/-- A tool is sent under the wire name that its lookup gives. -/
theorem bridgedNames_normalizeXaiNativeTool (hmet : Met sha256 occupied namespaces)
    (htype : typeOf cleaned = typeOf tool) (hname : nameOf cleaned = nameOf tool)
    (hfind : ∀ declared, identify namespaces tool = some declared →
      (findXaiToolInPlan plan.tools declared.sourceType (flatName sha256 declared)).isSome = true) :
    bridgedNames (normalizeXaiNativeTool plan cleaned) =
      ((identify namespaces tool).map (sentName sha256 plan)).toList := by
  unfold normalizeXaiNativeTool
  dsimp only
  rw [htype, hname]
  cases hdeclared : identify namespaces tool with
  | none =>
      have hbridged : isBridged tool = false := by
        rw [← isBridged_of_identify namespaces tool, hdeclared]
        rfl
      have hcleaned : isBridged cleaned = false := by
        unfold isBridged at hbridged ⊢
        rwa [htype]
      obtain ⟨hfunction, hcustom⟩ := Bool.or_eq_false_iff.mp hbridged
      rw [if_neg (by simpa using hfunction), if_neg (by simpa using hcustom)]
      split
      · simp [bridgedNames, hcleaned]
      · rfl
  | some declared =>
      obtain ⟨hflat, hkind⟩ := flatName_identify hmet hdeclared
      obtain ⟨binding, hbinding⟩ := Option.isSome_iff_exists.mp (hfind declared hdeclared)
      have hsent : sentName sha256 plan declared = binding.wireName := by
        rw [sentName, hbinding]
        rfl
      rw [Option.map_some, Option.toList_some, hsent]
      rcases hkind with ⟨hfunction, hsource⟩ | ⟨hcustom, hsource, -⟩
      · rw [hflat, hsource] at hbinding
        rw [if_pos hfunction, hbinding]
        have hassigned : typeOf (assign cleaned "name" (.string binding.wireName)) =
            js "function" := by
          rw [typeOf, prop_assign, if_neg (by decide)]
          exact htype.trans hfunction
        simp [bridgedNames, isBridged, hassigned, nameOf, stringValue]
      · rw [hflat, hsource] at hbinding
        rw [if_neg (by rw [hcustom]; decide), if_pos hcustom, hbinding]
        rfl

/-! ## The table of a plan -/

/-- A binding answers to the lookup of a tool under its flat name. -/
def answers (sha256 : JsString → Digest) (later earlier : ToolBridgeBinding) : Bool :=
  answersTo later.sourceType (flatName sha256 (toolOf later)) earlier

theorem answers_self (h : Bound sha256 binding) : answers sha256 binding binding = true := by
  unfold answers answersTo flatName toolOf
  cases hnamespace : binding.sourceNamespace with
  | none => simp
  | some nameSpace =>
      obtain ⟨-, -, hwire⟩ := h.namespaced nameSpace hnamespace
      simp [hwire]

/-- The declared bindings of the plan of an accepted request. -/
structure Table (sha256 : JsString → Digest) (declared : List DeclaredTool)
    (functions customs extra : List ToolBridgeBinding) (plan : XaiToolBridgePlan) : Prop where
  tools_eq : plan.tools = functions ++ customs ++ extra
  undeclared : ∀ binding ∈ extra, binding.declared = some false
  functions_eq : functions.map toolOf = declared.filter fun tool => tool.sourceType == .function
  customs_eq : customs.map toolOf = declared.filter fun tool => tool.sourceType == .custom
  kinds : ∀ tool ∈ declared, tool.sourceType = .function ∨
    tool.sourceType = .custom ∧ tool.nameSpace = none
  bound : ∀ binding ∈ functions ++ customs, Bound sha256 binding
  wires : ((functions ++ customs).map ToolBridgeBinding.wireName).Nodup
  flatNames : (functions.map fun binding => flatName sha256 (toolOf binding)).Nodup
  customNames : (customs.map ToolBridgeBinding.sourceName).Nodup

theorem filterMap_declarations
    (hkind : ∀ tool declared, identify namespaces tool = some declared →
      (typeOf tool = js type ↔ declared.sourceType = kind)) (tools : List JsonObject) :
    (declarations type tools).filterMap (identify namespaces) =
      (tools.filterMap (identify namespaces)).filter fun tool => tool.sourceType == kind := by
  rw [declarations, List.filterMap_filter, List.filter_filterMap]
  apply List.filterMap_congr
  intro tool _
  cases hdeclared : identify namespaces tool with
  | none => simp
  | some declared =>
      have := hkind tool declared hdeclared
      by_cases htype : typeOf tool = js type
      · simp [htype, Option.filter_some, this.mp htype]
      · have hother : declared.sourceType ≠ kind := fun h => htype (this.mpr h)
        simp [htype, Option.filter_some, hother]

/-- The tools of a request that a plan was built for. -/
theorem table_of_planFor (hmet : Met sha256 occupied namespaces)
    (h : PlanFor sha256 namespaces tools plan) : ∃ functions customs extra,
      Table sha256 (tools.filterMap (identify namespaces)) functions customs extra plan := by
  obtain ⟨functions, customs, extra, htools, hextra, hfunctions, hcustoms, hbound, hwires⟩ :=
    h.bindings
  have hkind {tool : JsonObject} {declared : DeclaredTool}
      (hdeclared : identify namespaces tool = some declared) := (flatName_identify hmet hdeclared).2
  have hfunctionKind : ∀ tool declared, identify namespaces tool = some declared →
      (typeOf tool = js "function" ↔ declared.sourceType = .function) := by
    intro tool declared hdeclared
    rcases hkind hdeclared with ⟨htype, hsource⟩ | ⟨htype, hsource, -⟩
    · exact iff_of_true htype hsource
    · exact iff_of_false (by rw [htype]; decide) (by rw [hsource]; decide)
  have hcustomKind : ∀ tool declared, identify namespaces tool = some declared →
      (typeOf tool = js "custom" ↔ declared.sourceType = .custom) := by
    intro tool declared hdeclared
    rcases hkind hdeclared with ⟨htype, hsource⟩ | ⟨htype, hsource, -⟩
    · exact iff_of_false (by rw [htype]; decide) (by rw [hsource]; decide)
    · exact iff_of_true htype hsource
  have hnames {type : String} (htype : ∀ tool ∈ declarations type tools,
      (identify namespaces tool).isSome = true) :
      ((declarations type tools).filterMap (identify namespaces)).map (flatName sha256) =
        (declarations type tools).map nameOf := by
    rw [List.map_filterMap]
    refine List.filterMap_eq_map_iff_forall_eq_some.mpr fun tool htool => ?_
    obtain ⟨declared, hdeclared⟩ := Option.isSome_iff_exists.mp (htype tool htool)
    rw [hdeclared, Option.map_some, (flatName_identify hmet hdeclared).1]
  refine ⟨functions, customs, extra, htools, hextra, ?_, ?_, ?_, hbound, hwires, ?_, ?_⟩
  · rw [hfunctions, filterMap_declarations hfunctionKind]
  · rw [hcustoms, filterMap_declarations hcustomKind]
  · intro declared hdeclared
    obtain ⟨tool, -, htool⟩ := List.mem_filterMap.mp hdeclared
    rcases hkind htool with ⟨-, hsource⟩ | ⟨-, hsource⟩
    · exact .inl hsource
    · exact .inr hsource
  · have hmap : functions.map (fun binding => flatName sha256 (toolOf binding)) =
        (functions.map toolOf).map (flatName sha256) := by rw [List.map_map]; rfl
    rw [hmap, hfunctions, hnames]
    · exact h.functionNames
    · intro tool htool
      rw [isBridged_of_identify, isBridged, typeOf_declarations htool]
      simp
  · have hmap : customs.map ToolBridgeBinding.sourceName =
        (customs.map toolOf).map (flatName sha256) := by
      rw [List.map_map]
      refine List.map_congr_left fun binding hbinding => ?_
      have hmem : toolOf binding ∈ (declarations "custom" tools).filterMap (identify namespaces) :=
        hcustoms ▸ List.mem_map.mpr ⟨binding, hbinding, rfl⟩
      obtain ⟨tool, htool, hdeclared⟩ := List.mem_filterMap.mp hmem
      have hsource := (hcustomKind tool _ hdeclared).mp (typeOf_declarations htool)
      rcases hkind hdeclared with ⟨-, hfunction⟩ | ⟨-, -, hplain⟩
      · rw [hfunction] at hsource
        cases hsource
      · rw [Function.comp_apply, flatName, hplain]
        rfl
    rw [hmap, hcustoms, hnames]
    · exact h.customNames
    · intro tool htool
      rw [isBridged_of_identify, isBridged, typeOf_declarations htool]
      decide

section

variable {declared : List DeclaredTool} {functions customs extra : List ToolBridgeBinding}
  {plan : XaiToolBridgePlan}

/-- The bindings of a table stand for the declared tools. -/
theorem Table.perm (h : Table sha256 declared functions customs extra plan) :
    declared.Perm ((functions ++ customs).map toolOf) := by
  have hcustoms : (declared.filter fun tool => !(tool.sourceType == SourceType.function)) =
      declared.filter fun tool => tool.sourceType == .custom := by
    apply List.filter_congr
    intro tool htool
    rcases h.kinds tool htool with hkind | ⟨hkind, -⟩ <;> rw [hkind] <;> rfl
  rw [List.map_append, h.functions_eq, h.customs_eq, ← hcustoms]
  exact (List.filter_append_perm _ declared).symm

theorem Table.function (h : Table sha256 declared functions customs extra plan)
    (hbinding : binding ∈ functions) : binding.sourceType = .function := by
  have hmem : toolOf binding ∈ declared.filter fun tool => tool.sourceType == .function :=
    h.functions_eq ▸ List.mem_map.mpr ⟨binding, hbinding, rfl⟩
  simpa [toolOf] using (List.mem_filter.mp hmem).2

theorem Table.custom (h : Table sha256 declared functions customs extra plan)
    (hbinding : binding ∈ customs) :
    binding.sourceType = .custom ∧ binding.sourceNamespace = none := by
  have hmem : toolOf binding ∈ declared.filter fun tool => tool.sourceType == .custom :=
    h.customs_eq ▸ List.mem_map.mpr ⟨binding, hbinding, rfl⟩
  obtain ⟨hdeclared, hkind⟩ := List.mem_filter.mp hmem
  have hcustom : binding.sourceType = .custom := by simpa [toolOf] using hkind
  refine ⟨hcustom, ?_⟩
  rcases h.kinds _ hdeclared with hfunction | ⟨-, hplain⟩
  · rw [show (toolOf binding).sourceType = binding.sourceType from rfl, hcustom] at hfunction
    cases hfunction
  · exact hplain

/-- The flat name of a later function is the short name of an earlier function of
a namespace. -/
def Shadows (sha256 : JsString → Digest) (earlier later : DeclaredTool) : Prop :=
  earlier.sourceType = .function ∧ later.sourceType = .function ∧ earlier.nameSpace ≠ none ∧
    earlier.name = flatName sha256 later

instance (sha256 : JsString → Digest) (earlier later : DeclaredTool) :
    Decidable (Shadows sha256 earlier later) :=
  inferInstanceAs (Decidable (_ ∧ _ ∧ _ ∧ _))

/-- No function of a namespace shadows a function that is declared after it. -/
def Unambiguous (sha256 : JsString → Digest) (tools : List DeclaredTool) : Prop :=
  tools.Pairwise fun earlier later => ¬Shadows sha256 earlier later

instance (sha256 : JsString → Digest) (tools : List DeclaredTool) :
    Decidable (Unambiguous sha256 tools) :=
  inferInstanceAs (Decidable (tools.Pairwise _))

/-- An earlier function answers to a later one only as its shadow. -/
theorem Table.answers_iff (h : Table sha256 declared functions customs extra plan)
    (hearlier : earlier ∈ functions) (hlater : later ∈ functions)
    (hne : flatName sha256 (toolOf earlier) ≠ flatName sha256 (toolOf later)) :
    answers sha256 later earlier = false ↔ ¬Shadows sha256 (toolOf earlier) (toolOf later) := by
  have hkind := h.function hearlier
  have hkind' := h.function hlater
  rw [← Bool.not_eq_true, not_iff_not]
  unfold answers answersTo Shadows
  simp only [hkind, hkind', toolOf, beq_self_eq_true, Bool.true_and, Bool.or_eq_true,
    Bool.and_eq_true, beq_iff_eq, true_and]
  cases hnamespace : earlier.sourceNamespace with
  | none =>
      have hflat : flatName sha256 (toolOf earlier) = earlier.sourceName := by
        simp [flatName, toolOf, hnamespace]
      rw [hflat] at hne
      constructor
      · rintro (hname | ⟨hsome, -⟩)
        · exact absurd hname hne
        · cases hsome
      · rintro ⟨hnone, -⟩
        exact absurd rfl hnone
  | some nameSpace =>
      obtain ⟨-, -, hwire⟩ :=
        (h.bound earlier (List.mem_append_left _ hearlier)).namespaced nameSpace hnamespace
      have hflat : flatName sha256 (toolOf earlier) = earlier.wireName := by
        simp [flatName, toolOf, hnamespace, hwire]
      rw [hflat] at hne
      constructor
      · rintro (hname | ⟨-, hname⟩)
        · exact ⟨Option.some_ne_none _, hname⟩
        · exact absurd hname hne
      · rintro ⟨-, hname⟩
        exact .inl hname

/-- The table has no shadows if and only if the declared tools are unambiguous. -/
theorem Table.unshadowed_iff (h : Table sha256 declared functions customs extra plan) :
    Lib.Unshadowed (answers sha256) (functions ++ customs) ↔ Unambiguous sha256 declared := by
  have hcustoms : customs.Pairwise fun earlier later => answers sha256 later earlier = false := by
    refine (List.pairwise_map.mp h.customNames).imp_of_mem ?_
    intro earlier later hearlier hlater hne
    obtain ⟨hkind, hplain⟩ := h.custom hearlier
    obtain ⟨hkind', hplain'⟩ := h.custom hlater
    simp [answers, answersTo, flatName, toolOf, hkind, hkind', hplain, hplain', hne]
  have hcross : ∀ earlier ∈ functions, ∀ later ∈ customs, answers sha256 later earlier = false := by
    intro earlier hearlier later hlater
    have hkind := h.function hearlier
    obtain ⟨hkind', -⟩ := h.custom hlater
    simp [answers, answersTo, hkind, hkind']
  have hnames := List.pairwise_map.mp h.flatNames
  unfold Lib.Unshadowed Unambiguous
  rw [List.pairwise_append]
  have hfunctions : (functions.Pairwise fun earlier later => answers sha256 later earlier = false) ↔
      declared.Pairwise fun earlier later => ¬Shadows sha256 earlier later := by
    have hmap : (functions.Pairwise fun earlier later =>
        ¬Shadows sha256 (toolOf earlier) (toolOf later)) ↔
        declared.Pairwise fun earlier later => ¬Shadows sha256 earlier later := by
      rw [← List.pairwise_map (f := toolOf) (R := fun earlier later => ¬Shadows sha256 earlier later),
        h.functions_eq, List.pairwise_filter]
      constructor
      · intro hpair
        refine hpair.imp fun hnot hshadows => ?_
        exact hnot (by simpa using hshadows.1) (by simpa using hshadows.2.1) hshadows
      · exact fun hpair => hpair.imp fun hnot _ _ => hnot
    rw [← hmap]
    constructor
    · intro hpair
      refine (hnames.and hpair).imp_of_mem fun {earlier later} hearlier hlater hboth => ?_
      exact (h.answers_iff hearlier hlater hboth.1).mp hboth.2
    · intro hpair
      refine (hnames.and hpair).imp_of_mem fun {earlier later} hearlier hlater hboth => ?_
      exact (h.answers_iff hearlier hlater hboth.1).mpr hboth.2
  rw [hfunctions]
  exact ⟨fun hall => hall.1, fun hall => ⟨hall, hcustoms, hcross⟩⟩

/-- A binding of the table is looked up in the table. -/
theorem Table.lookup_eq (h : Table sha256 declared functions customs extra plan)
    (hbinding : binding ∈ functions ++ customs) :
    findXaiToolInPlan plan.tools binding.sourceType (flatName sha256 (toolOf binding)) =
      Lib.lookup (answers sha256) (functions ++ customs) binding := by
  obtain ⟨found, -, hfound⟩ := Lib.lookup_isSome (fun b hb => answers_self (h.bound b hb)) hbinding
  rw [hfound]
  unfold Lib.lookup at hfound
  unfold findXaiToolInPlan
  rw [h.tools_eq, List.find?_append]
  rw [show (functions ++ customs).find? (answersTo binding.sourceType
    (flatName sha256 (toolOf binding))) = some found from hfound, Option.some_or]

end

end StonePlus.Grok
