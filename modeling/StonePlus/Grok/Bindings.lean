import StonePlus.Grok.Declared

/-!
# StonePlus.Grok.Bindings

What the plan holds: one binding for each declared tool, under wire names that
are safe and pairwise distinct, and then the calls of the history that no
declaration answers to.
-/

namespace StonePlus.Grok

open Dsml Streaming Json

/-- The tool that a binding is for. -/
def toolOf (binding : ToolBridgeBinding) : DeclaredTool :=
  ⟨binding.sourceType, binding.sourceNamespace, binding.sourceName⟩

variable {sha256 : JsString → Digest} {occupied : List JsString}
  {namespaces : JsMap JsString XaiNamespaceBinding}

/-- The binding of a declared tool. -/
structure Bound (sha256 : JsString → Digest) (binding : ToolBridgeBinding) : Prop where
  declared : binding.declared = some true
  safe : safeXaiWireName binding.wireName = true
  namespaced : ∀ nameSpace, binding.sourceNamespace = some nameSpace →
    nameSpace ≠ [] ∧ binding.sourceType = .function ∧
      binding.wireName = xaiNamespaceWireName sha256 nameSpace binding.sourceName

/-! ## Functions -/

theorem checkFunctionNames_spec (h : checkFunctionNames names used tools = .ok used') :
    (tools.map nameOf).Nodup ∧ (∀ tool ∈ tools, nameOf tool ∉ names) ∧ (∀ w ∈ used, w ∈ used') ∧
      ∀ tool ∈ tools, safeXaiWireName (nameOf tool) = true → nameOf tool ∈ used' := by
  induction tools generalizing names used with
  | nil =>
      cases h
      simp
  | cons tool tools ih =>
      unfold checkFunctionNames at h
      split at h
      · cases h
      · next name hname =>
        split at h
        · cases h
        · next hnew =>
          obtain ⟨hnodup, hothers, hused, hsafe⟩ := ih h
          have heq : nameOf tool = name := nameOf_eq hname
          refine ⟨?_, ?_, ?_, ?_⟩
          · rw [List.map_cons, List.nodup_cons, heq]
            refine ⟨fun hmem => ?_, hnodup⟩
            obtain ⟨other, hother, hsame⟩ := List.mem_map.mp hmem
            exact hothers other hother (hsame ▸ List.mem_cons_self)
          · intro other hother
            rcases List.mem_cons.mp hother with rfl | hother
            · rwa [heq]
            · exact fun hmem => hothers other hother (List.mem_cons_of_mem name hmem)
          · intro w hw
            apply hused
            split
            · exact List.mem_cons_of_mem name hw
            · exact hw
          · intro other hother hother'
            rcases List.mem_cons.mp hother with rfl | hother
            · rw [heq] at hother' ⊢
              apply hused
              rw [if_pos hother']
              exact List.mem_cons_self
            · exact hsafe other hother hother'

/-- The wire name of a function: its own, unless it is unsafe; then it is new. -/
theorem functionWireName_spec (hmet : Met sha256 occupied namespaces)
    (h : functionWireName sha256 namespaces used name = .ok wireName) :
    safeXaiWireName wireName = true ∧
      (wireName = name ∨ namespaces.get? name = none ∧ wireName ∉ used) := by
  unfold functionWireName at h
  split at h
  · next found hfound =>
    cases h
    obtain ⟨hw, hname⟩ := hmet.wire hfound
    rw [← hw]
    refine ⟨?_, .inl rfl⟩
    rw [hname]
    exact safe_xaiNamespaceWireName sha256 _ _
  · next hnone =>
    split at h
    · next hsafe =>
      cases h
      exact ⟨hsafe, .inl rfl⟩
    · obtain ⟨hsafe, hnew⟩ := makeXaiAlias_spec sha256 (List.all_eq_true.mp (by decide)) h
      exact ⟨hsafe, .inr ⟨hnone, hnew⟩⟩

theorem bound_functionBinding (hmet : Met sha256 occupied namespaces)
    (h : functionWireName sha256 namespaces used name = .ok wireName) :
    Bound sha256 (functionBinding namespaces name wireName) := by
  obtain ⟨hsafe, hname⟩ := functionWireName_spec hmet h
  refine ⟨rfl, hsafe, fun nameSpace hnameSpace => ?_⟩
  obtain ⟨found, hfound, rfl⟩ := Option.map_eq_some_iff.mp hnameSpace
  have hw : wireName = name := hname.resolve_right fun hnone => by
    rw [hnone.1] at hfound
    cases hfound
  refine ⟨hmet.named hfound, rfl, ?_⟩
  rw [functionBinding, hfound]
  exact hw.trans (hmet.wire hfound).2

theorem toolOf_functionBinding (htype : typeOf tool = js "function") (wireName : JsString) :
    identify namespaces tool = some (toolOf (functionBinding namespaces (nameOf tool) wireName)) := by
  rw [identify, if_pos htype, toolOf, functionBinding]
  cases namespaces.get? (nameOf tool) <;> rfl

/-- The bindings of a loop: for these tools, under new names. -/
structure Binds (sha256 : JsString → Digest) (namespaces : JsMap JsString XaiNamespaceBinding)
    (tools : List JsonObject) (bindings : List ToolBridgeBinding) (previous used' : List JsString) :
    Prop where
  tools_eq : bindings.map toolOf = tools.filterMap (identify namespaces)
  bound : ∀ binding ∈ bindings, Bound sha256 binding
  nodup : (bindings.map ToolBridgeBinding.wireName).Nodup
  fresh : ∀ binding ∈ bindings, binding.wireName ∉ previous
  used : ∀ binding ∈ bindings, binding.wireName ∈ used'

/-- One more binding, whose name is new to those before. -/
theorem Binds.cons {tool : JsonObject} {tools : List JsonObject} {binding : ToolBridgeBinding}
    {bindings : List ToolBridgeBinding} {previous used' : List JsString}
    (h : Binds sha256 namespaces tools bindings (binding.wireName :: previous) used')
    (htool : identify namespaces tool = some (toolOf binding)) (hbound : Bound sha256 binding)
    (hfresh : binding.wireName ∉ previous) (hused : binding.wireName ∈ used') :
    Binds sha256 namespaces (tool :: tools) (binding :: bindings) previous used' where
  tools_eq := by
    rw [List.filterMap_cons_some htool, List.map_cons, h.tools_eq]
  bound := List.forall_mem_cons.mpr ⟨hbound, h.bound⟩
  nodup := by
    rw [List.map_cons, List.nodup_cons]
    refine ⟨fun hmem => ?_, h.nodup⟩
    obtain ⟨other, hother, hsame⟩ := List.mem_map.mp hmem
    exact h.fresh other hother (hsame ▸ List.mem_cons_self)
  fresh := List.forall_mem_cons.mpr ⟨hfresh, fun other hother hmem =>
    h.fresh other hother (List.mem_cons_of_mem _ hmem)⟩
  used := List.forall_mem_cons.mpr ⟨hused, h.used⟩

theorem bindFunctions_spec (hmet : Met sha256 occupied namespaces) (previous : List JsString)
    (htypes : ∀ tool ∈ tools, typeOf tool = js "function") (hnames : (tools.map nameOf).Nodup)
    (hprevious : ∀ w ∈ previous, w ∈ used)
    (hsafe : ∀ tool ∈ tools, safeXaiWireName (nameOf tool) = true → nameOf tool ∈ used)
    (hothers : ∀ tool ∈ tools, nameOf tool ∉ previous)
    (h : bindFunctions sha256 namespaces used tools = .ok (bindings, used')) :
    Binds sha256 namespaces tools bindings previous used' ∧ ∀ w ∈ used, w ∈ used' := by
  induction tools generalizing bindings previous used with
  | nil =>
      cases h
      refine ⟨⟨rfl, ?_, List.nodup_nil, ?_, ?_⟩, fun _ => id⟩ <;> simp
  | cons tool tools ih =>
      obtain ⟨wireName, hwire, h⟩ := Lib.bind_eq_ok.mp h
      obtain ⟨⟨rest, later⟩, hrest, heq⟩ := Lib.bind_eq_ok.mp h
      cases heq
      obtain ⟨hnot, hnames⟩ := List.nodup_cons.mp hnames
      obtain ⟨hwireSafe, hname⟩ := functionWireName_spec hmet hwire
      have hfresh : wireName ∉ previous := by
        rcases hname with rfl | ⟨-, hnew⟩
        · exact hothers tool List.mem_cons_self
        · exact fun hmem => hnew (hprevious wireName hmem)
      -- a later tool of this name would have had it in use
      have hlater : ∀ other ∈ tools, nameOf other ≠ wireName := by
        intro other hother hsame
        rcases hname with rfl | ⟨-, hnew⟩
        · exact hnot (List.mem_map.mpr ⟨other, hother, hsame⟩)
        · exact hnew (hsame ▸ hsafe other (List.mem_cons_of_mem tool hother) (hsame ▸ hwireSafe))
      obtain ⟨hbinds, hused⟩ := ih (wireName :: previous)
        (fun other hother => htypes other (List.mem_cons_of_mem tool hother))
        hnames
        (fun w hw => by
          rcases List.mem_cons.mp hw with rfl | hw
          · exact List.mem_cons_self
          · exact List.mem_cons_of_mem _ (hprevious w hw))
        (fun other hother hother' =>
          List.mem_cons_of_mem _ (hsafe other (List.mem_cons_of_mem tool hother) hother'))
        (fun other hother hmem => by
          rcases List.mem_cons.mp hmem with hsame | hmem
          · exact hlater other hother hsame
          · exact hothers other (List.mem_cons_of_mem tool hother) hmem)
        hrest
      refine ⟨?_, fun w hw => hused w (List.mem_cons_of_mem _ hw)⟩
      exact hbinds.cons (toolOf_functionBinding (htypes tool List.mem_cons_self) wireName)
        (bound_functionBinding hmet hwire) hfresh (hused wireName List.mem_cons_self)

/-! ## Custom tools -/

theorem toolOf_customBinding (htype : typeOf tool = js "custom")
    (hname : optionalString (tool.prop "name") = some name) (wireName : JsString) :
    identify namespaces tool = some (toolOf (customBinding name wireName)) := by
  rw [identify, if_neg (by rw [htype]; decide), if_pos htype, nameOf_eq hname]
  rfl

theorem bindCustoms_spec (namespaces : JsMap JsString XaiNamespaceBinding)
    (htypes : ∀ tool ∈ tools, typeOf tool = js "custom")
    (h : bindCustoms sha256 names used tools = .ok (bindings, used')) :
    Binds sha256 namespaces tools bindings used used' ∧ (tools.map nameOf).Nodup ∧
      (∀ tool ∈ tools, nameOf tool ∉ names) ∧ ∀ w ∈ used, w ∈ used' := by
  induction tools generalizing bindings names used with
  | nil =>
      cases h
      refine ⟨⟨rfl, ?_, List.nodup_nil, ?_, ?_⟩, List.nodup_nil, ?_, fun _ => id⟩ <;> simp
  | cons tool tools ih =>
      unfold bindCustoms at h
      split at h
      · cases h
      · next name hname =>
        split at h
        · cases h
        · next hnew =>
          obtain ⟨wireName, hwire, h⟩ := Lib.bind_eq_ok.mp h
          obtain ⟨⟨rest, later⟩, hrest, heq⟩ := Lib.bind_eq_ok.mp h
          cases heq
          obtain ⟨hbinds, hnodup, hothers, hused⟩ :=
            ih (fun other hother => htypes other (List.mem_cons_of_mem tool hother)) hrest
          obtain ⟨hsafe, hfresh⟩ := makeXaiAlias_spec sha256 (List.all_eq_true.mp (by decide)) hwire
          have heq : nameOf tool = name := nameOf_eq hname
          refine ⟨?_, ?_, ?_, fun w hw => hused w (List.mem_cons_of_mem _ hw)⟩
          · refine Binds.cons hbinds
              (toolOf_customBinding (htypes tool List.mem_cons_self) hname wireName) ⟨rfl, hsafe, ?_⟩
              hfresh (hused wireName List.mem_cons_self)
            rintro nameSpace ⟨⟩
          · rw [List.map_cons, List.nodup_cons, heq]
            refine ⟨fun hmem => ?_, hnodup⟩
            obtain ⟨other, hother, hsame⟩ := List.mem_map.mp hmem
            exact hothers other hother (hsame ▸ List.mem_cons_self)
          · intro other hother
            rcases List.mem_cons.mp hother with rfl | hother
            · rwa [heq]
            · exact fun hmem => hothers other hother (List.mem_cons_of_mem name hmem)

/-! ## History -/

/-- The loop over the input only adds undeclared bindings. -/
def Extends (tools tools' : List ToolBridgeBinding) : Prop :=
  ∃ extra, tools' = tools ++ extra ∧ ∀ binding ∈ extra, binding.declared = some false

theorem extends_refl (tools : List ToolBridgeBinding) : Extends tools tools :=
  ⟨[], by simp, by simp⟩

theorem Extends.trans (h : Extends tools tools') (h' : Extends tools' tools'') :
    Extends tools tools'' := by
  obtain ⟨extra, rfl, hextra⟩ := h
  obtain ⟨extra', rfl, hextra'⟩ := h'
  exact ⟨extra ++ extra', by simp, List.forall_mem_append.mpr ⟨hextra, hextra'⟩⟩

theorem extends_bindCall
    (h : bindCall sha256 history index sourceType sourceName sourceNamespace =
      .ok (binding, history')) : Extends history.tools history'.tools := by
  unfold bindCall at h
  dsimp only at h
  split at h
  · cases h
    exact extends_refl _
  · obtain ⟨wireName, -, heq⟩ := Lib.bind_eq_ok.mp h
    cases heq
    exact ⟨_, rfl, by simp⟩

theorem extends_recordCall
    (h : recordCall sha256 history index sourceType callId item = .ok (item', history')) :
    Extends history.tools history'.tools := by
  unfold recordCall at h
  split at h
  · cases h
  · split at h
    · cases h
    · dsimp only at h
      split at h
      · cases h
      · split at h
        · cases h
        · obtain ⟨⟨binding, bound⟩, hbind, h⟩ := Lib.bind_eq_ok.mp h
          obtain ⟨calls, -, heq⟩ := Lib.bind_eq_ok.mp h
          cases heq
          have hextends := extends_bindCall hbind
          exact hextends

theorem extends_recordItem (h : recordItem sha256 history index item = .ok (item', history')) :
    Extends history.tools history'.tools := by
  unfold recordItem at h
  dsimp only at h
  split at h
  · cases h
    exact extends_refl _
  · split at h
    · cases h
    · split at h
      · exact extends_recordCall h
      · split at h
        · cases h
        · split at h
          · cases h
            exact extends_refl _
          · cases h

theorem extends_recordHistory
    (h : recordHistory sha256 history index items = .ok (items', history')) :
    Extends history.tools history'.tools := by
  fun_induction recordHistory sha256 history index items generalizing items' history' with
  | case1 history index =>
      cases h
      exact extends_refl _
  | case2 history index item items ih =>
      obtain ⟨⟨item', middle⟩, hitem, h⟩ := Lib.bind_eq_ok.mp h
      obtain ⟨⟨rest, later⟩, hrest, heq⟩ := Lib.bind_eq_ok.mp h
      cases heq
      exact (extends_recordItem hitem).trans (ih _ hrest)
  | case3 history index value items _ ih =>
      obtain ⟨⟨rest, later⟩, hrest, heq⟩ := Lib.bind_eq_ok.mp h
      cases heq
      exact ih hrest

/-! ## The plan -/

/-- A plan for the tools of a flattened request. -/
structure PlanFor (sha256 : JsString → Digest) (namespaces : JsMap JsString XaiNamespaceBinding)
    (tools : List JsonObject) (plan : XaiToolBridgePlan) : Prop where
  bindings : ∃ functions customs extra, plan.tools = functions ++ customs ++ extra ∧
    (∀ binding ∈ extra, binding.declared = some false) ∧
    functions.map toolOf = (declarations "function" tools).filterMap (identify namespaces) ∧
    customs.map toolOf = (declarations "custom" tools).filterMap (identify namespaces) ∧
    (∀ binding ∈ functions ++ customs, Bound sha256 binding) ∧
    ((functions ++ customs).map ToolBridgeBinding.wireName).Nodup
  functionNames : ((declarations "function" tools).map nameOf).Nodup
  customNames : ((declarations "custom" tools).map nameOf).Nodup
  bridged : plan.requiresResponseBridge = decide (0 < plan.tools.length)

theorem typeOf_declarations (h : tool ∈ declarations type tools) : typeOf tool = js type := by
  simpa using (List.mem_filter.mp h).2

theorem planFor_buildXaiToolBridgePlan (hmet : Met sha256 occupied namespaces)
    (h : buildXaiToolBridgePlan sha256 namespaces body = .ok (plan, prepared)) :
    PlanFor sha256 namespaces (arrayOfObjects (body.prop "tools")) plan ∧
      prepared.prop "tools" = body.prop "tools" := by
  unfold buildXaiToolBridgePlan at h
  dsimp only at h
  obtain ⟨_, -, h⟩ := Lib.bind_eq_ok.mp h
  obtain ⟨used, hused, h⟩ := Lib.bind_eq_ok.mp h
  obtain ⟨⟨functions, used₁⟩, hfunctions, h⟩ := Lib.bind_eq_ok.mp h
  obtain ⟨⟨customs, used₂⟩, hcustoms, h⟩ := Lib.bind_eq_ok.mp h
  obtain ⟨⟨input, history⟩, hhistory, heq⟩ := Lib.bind_eq_ok.mp h
  cases heq
  obtain ⟨hnames, -, -, hsafe⟩ := checkFunctionNames_spec hused
  obtain ⟨hbinds, -⟩ := bindFunctions_spec hmet []
    (fun tool => typeOf_declarations) hnames (by simp) hsafe (by simp) hfunctions
  obtain ⟨hbinds', hnames', -, -⟩ := bindCustoms_spec namespaces
    (fun tool => typeOf_declarations) hcustoms
  obtain ⟨extra, htools, hextra⟩ := extends_recordHistory hhistory
  constructor
  · refine ⟨⟨functions, customs, extra, htools, hextra, hbinds.tools_eq, hbinds'.tools_eq,
      List.forall_mem_append.mpr ⟨hbinds.bound, hbinds'.bound⟩, ?_⟩, hnames, hnames', rfl⟩
    rw [List.map_append, List.nodup_append]
    refine ⟨hbinds.nodup, hbinds'.nodup, ?_⟩
    rintro w hw w' hw' rfl
    obtain ⟨binding, hbinding, rfl⟩ := List.mem_map.mp hw
    obtain ⟨custom, hcustom, hsame⟩ := List.mem_map.mp hw'
    exact hbinds'.fresh custom hcustom (hsame ▸ hbinds.used binding hbinding)
  · split
    · rw [prop_assign, if_neg (by decide)]
    · rfl

end StonePlus.Grok
