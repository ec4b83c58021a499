import StonePlus.Grok.Source
import StonePlus.Lib.Except

/-!
# StonePlus.Grok.Declared

The tools a client declares, and what flattening makes of them.
-/

namespace StonePlus.Grok

open Dsml Streaming Json

/-- A tool that a client declares. -/
structure DeclaredTool where
  sourceType : SourceType
  nameSpace : Option JsString
  name : JsString
  deriving DecidableEq

/-- The functions that the children of a namespace declare. -/
def declaredChild (nameSpace : JsString) (child : JsonObject) : Option DeclaredTool :=
  if typeOf child = js "function" then
    (optionalString (child.prop "name")).map fun name => ⟨.function, some nameSpace, name⟩
  else none

/-- What a tool of a request declares; a namespace declares its functions. -/
def declaredBy (tool : JsonObject) : List DeclaredTool :=
  if isNamespace tool then
    match optionalString (tool.prop "name") with
    | none => []
    | some nameSpace => (childrenOf tool).filterMap (declaredChild nameSpace)
  else if typeOf tool = js "function" then [⟨.function, none, nameOf tool⟩]
  else if typeOf tool = js "custom" then [⟨.custom, none, nameOf tool⟩]
  else []

/-- Every tool once. -/
def eachOnce (tools declared : List DeclaredTool) : List DeclaredTool :=
  declared.foldl (fun tools tool => setAdd tool tools) tools

/-- The tools that a request declares, each once. -/
def declaredTools (body : JsonObject) : List DeclaredTool :=
  eachOnce [] ((arrayOfObjects ((promoteXaiAdditionalTools body).prop "tools")).flatMap declaredBy)

variable (sha256 : JsString → Digest)

/-- The name of a tool in the flattened request. -/
def flatName (tool : DeclaredTool) : JsString :=
  match tool.nameSpace with
  | some nameSpace => xaiNamespaceWireName sha256 nameSpace tool.name
  | none => tool.name

/-- The declared tool that a tool of the flattened request stands for. -/
def identify (namespaces : JsMap JsString XaiNamespaceBinding) (tool : JsonObject) :
    Option DeclaredTool :=
  if typeOf tool = js "function" then
    match namespaces.get? (nameOf tool) with
    | some found => some ⟨.function, some found.nameSpace, found.name⟩
    | none => some ⟨.function, none, nameOf tool⟩
  else if typeOf tool = js "custom" then some ⟨.custom, none, nameOf tool⟩
  else none

/-! ## Properties of assigned objects -/

@[simp] theorem prop_assign (object : JsonObject) (key key' : String) (value : Json) :
    (assign object key value).prop key' = if js key = js key' then some value else object.prop key' :=
  property?_setProperty

@[simp] theorem prop_remove (object : JsonObject) (key key' : String) :
    (remove object key).prop key' = if js key = js key' then none else object.prop key' :=
  property?_deleteProperty

theorem optionalString_eq_some (h : optionalString value = some s) :
    s ≠ [] ∧ value = some (.string s) := by
  unfold optionalString at h
  split at h
  · cases h
    exact ⟨List.cons_ne_nil _ _, rfl⟩
  · cases h

theorem nameOf_eq (h : optionalString (tool.prop "name") = some name) : nameOf tool = name := by
  rw [nameOf, (optionalString_eq_some h).2]
  rfl

@[simp] theorem arrayOfObjects_objects (objects : List JsonObject) :
    arrayOfObjects (some (.array (objects.map .object))) = objects := by
  simp [arrayOfObjects, arrayValue, objectValue, List.filterMap_map]

/-! ## Flattening -/

/-- The namespaces that flattening has met: under their wire names, none of
which a plain tool has. -/
structure Met (occupied : List JsString) (namespaces : JsMap JsString XaiNamespaceBinding) :
    Prop where
  wire : ∀ {w found}, namespaces.get? w = some found →
    w = found.wireName ∧ w = xaiNamespaceWireName sha256 found.nameSpace found.name
  named : ∀ {w found}, namespaces.get? w = some found → found.nameSpace ≠ []
  free : ∀ {w found}, namespaces.get? w = some found → w ∉ occupied

/-- The functions of namespaces among these tools are those that have been met. -/
def Records (tools : List DeclaredTool) (namespaces : JsMap JsString XaiNamespaceBinding) : Prop :=
  ∀ nameSpace name, ⟨.function, some nameSpace, name⟩ ∈ tools ↔
    ∃ found, namespaces.get? (xaiNamespaceWireName sha256 nameSpace name) = some found ∧
      found.nameSpace = nameSpace ∧ found.name = name

/-- Later namespaces keep the earlier ones. -/
def Keeps (namespaces namespaces' : JsMap JsString XaiNamespaceBinding) : Prop :=
  ∀ {w found}, namespaces.get? w = some found → namespaces'.get? w = some found

variable {sha256} {occupied : List JsString} {namespaces namespaces' : JsMap JsString XaiNamespaceBinding}

theorem met_empty : Met sha256 occupied ∅ := by
  constructor <;> intro w found h <;> cases h

theorem records_empty : Records sha256 [] ∅ := by
  intro nameSpace name
  constructor
  · intro h
    cases h
  · rintro ⟨found, h, -⟩
    cases h

theorem Met.set (h : Met sha256 occupied namespaces) (hnamed : nameSpace ≠ [])
    (hfree : xaiNamespaceWireName sha256 nameSpace name ∉ occupied) :
    Met sha256 occupied (namespaces.set (xaiNamespaceWireName sha256 nameSpace name)
      ⟨nameSpace, name, xaiNamespaceWireName sha256 nameSpace name⟩) := by
  constructor
  · intro w found hfound
    rw [JsMap.get?_set] at hfound
    split at hfound
    · next hw =>
      cases hfound
      exact ⟨hw, hw⟩
    · exact h.wire hfound
  · intro w found hfound
    rw [JsMap.get?_set] at hfound
    split at hfound
    · cases hfound
      exact hnamed
    · exact h.named hfound
  · intro w found hfound
    rw [JsMap.get?_set] at hfound
    split at hfound
    · next hw => exact hw ▸ hfree
    · exact h.free hfound

theorem Records.set (h : Records sha256 tools namespaces)
    (hnew : namespaces.get? (xaiNamespaceWireName sha256 nameSpace name) = none) :
    Records sha256 (tools ++ [⟨.function, some nameSpace, name⟩])
      (namespaces.set (xaiNamespaceWireName sha256 nameSpace name)
        ⟨nameSpace, name, xaiNamespaceWireName sha256 nameSpace name⟩) := by
  intro nameSpace' name'
  rw [List.mem_append, List.mem_singleton, h, JsMap.get?_set]
  constructor
  · rintro (⟨found, hfound, hnames⟩ | heq)
    · refine ⟨found, ?_, hnames⟩
      rw [if_neg, hfound]
      intro hw
      rw [hw, hnew] at hfound
      cases hfound
    · cases heq
      rw [if_pos rfl]
      exact ⟨_, rfl, rfl, rfl⟩
  · rintro ⟨found, hfound, hns, hname⟩
    split at hfound
    · cases hfound
      dsimp only at hns hname
      subst hns hname
      exact .inr rfl
    · exact .inl ⟨found, hfound, hns, hname⟩

theorem Records.plain (h : Records sha256 tools namespaces) (hplain : tool.nameSpace = none) :
    Records sha256 (tools ++ [tool]) namespaces := by
  intro nameSpace name
  rw [List.mem_append, List.mem_singleton, ← h nameSpace name, or_iff_left]
  rintro rfl
  cases hplain

/-- What the flattened tools of a loop stand for: the tools it has met, each
once. -/
structure Flattens (sha256 : JsString → Digest) (occupied : List JsString)
    (namespaces namespaces' : JsMap JsString XaiNamespaceBinding)
    (declared : List DeclaredTool) (flattened : List JsonObject) : Prop where
  met : Met sha256 occupied namespaces'
  keeps : Keeps namespaces namespaces'
  once : ∀ tools, Records sha256 tools namespaces →
    (∀ later, Keeps namespaces' later → Met sha256 occupied later →
      (tools ++ flattened.filterMap (identify later)).Nodup →
      eachOnce tools declared = tools ++ flattened.filterMap (identify later)) ∧
    Records sha256 (eachOnce tools declared) namespaces'

@[simp] theorem eachOnce_nil (tools : List DeclaredTool) : eachOnce tools [] = tools := rfl

@[simp] theorem eachOnce_cons (tools : List DeclaredTool) (tool : DeclaredTool)
    (declared : List DeclaredTool) :
    eachOnce tools (tool :: declared) = eachOnce (setAdd tool tools) declared := rfl

theorem eachOnce_append (tools declared more : List DeclaredTool) :
    eachOnce tools (declared ++ more) = eachOnce (eachOnce tools declared) more :=
  List.foldl_append

theorem setAdd_of_mem {tool : DeclaredTool} (h : tool ∈ tools) : setAdd tool tools = tools := if_pos h

theorem setAdd_of_notMem {tool : DeclaredTool} (h : tool ∉ tools) :
    setAdd tool tools = tools ++ [tool] := if_neg h

theorem Met.get?_eq_none (h : Met sha256 occupied namespaces)
    (hname : name = [] ∨ name ∈ occupied) : namespaces.get? name = none := by
  cases hfound : namespaces.get? name with
  | none => rfl
  | some found =>
      exfalso
      rcases hname with rfl | hname
      · have hsafe := safe_xaiNamespaceWireName sha256 found.nameSpace found.name
        rw [← (h.wire hfound).2] at hsafe
        cases hsafe
      · exact h.free hfound hname

theorem flattens_nil (h : Met sha256 occupied namespaces) :
    Flattens sha256 occupied namespaces namespaces [] [] where
  met := h
  keeps := id
  once tools hrecords := ⟨fun _ _ _ _ => by simp, hrecords⟩

/-- One loop after another. -/
theorem Flattens.append (h : Flattens sha256 occupied namespaces namespaces' declared flattened)
    (h' : Flattens sha256 occupied namespaces' namespaces'' declared' flattened') :
    Flattens sha256 occupied namespaces namespaces'' (declared ++ declared')
      (flattened ++ flattened') where
  met := h'.met
  keeps hfound := h'.keeps (h.keeps hfound)
  once tools hrecords := by
    obtain ⟨honce, hrecords'⟩ := h.once tools hrecords
    obtain ⟨honce', hrecords''⟩ := h'.once _ hrecords'
    refine ⟨fun later hlater hmet hnodup => ?_, ?_⟩
    · have hkeeps : Keeps namespaces' later := fun hfound => hlater (h'.keeps hfound)
      rw [List.filterMap_append, ← List.append_assoc] at hnodup ⊢
      have hfirst := honce later hkeeps hmet (List.nodup_append.mp hnodup).1
      rw [eachOnce_append, ← hfirst]
      rw [← hfirst] at hnodup
      exact honce' later hlater hmet hnodup
    · rw [eachOnce_append]
      exact hrecords''

/-- A function of a namespace that has been met is passed over. -/
theorem Flattens.again (h : Flattens sha256 occupied namespaces namespaces' declared flattened)
    (hfound : namespaces.get? (xaiNamespaceWireName sha256 found.nameSpace found.name) = some found) :
    Flattens sha256 occupied namespaces namespaces'
      (⟨.function, some found.nameSpace, found.name⟩ :: declared) flattened where
  met := h.met
  keeps := h.keeps
  once tools hrecords := by
    have hmem := (hrecords found.nameSpace found.name).mpr ⟨found, hfound, rfl, rfl⟩
    rw [eachOnce_cons, setAdd_of_mem hmem]
    exact h.once tools hrecords

/-- A new function of a namespace goes under its wire name. -/
theorem Flattens.function
    (h : Flattens sha256 occupied (namespaces.set (xaiNamespaceWireName sha256 nameSpace name)
      ⟨nameSpace, name, xaiNamespaceWireName sha256 nameSpace name⟩) namespaces' declared flattened)
    (hnew : namespaces.get? (xaiNamespaceWireName sha256 nameSpace name) = none)
    (htype : typeOf tool = js "function")
    (hname : nameOf tool = xaiNamespaceWireName sha256 nameSpace name) :
    Flattens sha256 occupied namespaces namespaces'
      (⟨.function, some nameSpace, name⟩ :: declared) (tool :: flattened) where
  met := h.met
  keeps {w found} hfound := by
    refine h.keeps ?_
    rw [JsMap.get?_set_of_ne _ _ fun hw => ?_]
    · exact hfound
    · rw [hw, hnew] at hfound
      cases hfound
  once tools hrecords := by
    have hnot : (⟨.function, some nameSpace, name⟩ : DeclaredTool) ∉ tools := by
      intro hmem
      obtain ⟨found, hfound, -⟩ := (hrecords nameSpace name).mp hmem
      rw [hnew] at hfound
      cases hfound
    rw [eachOnce_cons, setAdd_of_notMem hnot]
    obtain ⟨honce, hrecords'⟩ := h.once _ (hrecords.set hnew)
    refine ⟨fun later hlater hmet hnodup => ?_, hrecords'⟩
    have hidentify : identify later tool = some ⟨.function, some nameSpace, name⟩ := by
      rw [identify, if_pos htype, hname, hlater (h.keeps (JsMap.get?_set_self _ _ _))]
    rw [List.filterMap_cons_some hidentify] at hnodup ⊢
    rw [List.append_cons] at hnodup
    rw [honce later hlater hmet hnodup, List.append_assoc]
    rfl

theorem flattens_flattenChildren (hnamed : nameSpace ≠ []) (hmet : Met sha256 occupied namespaces)
    (h : flattenChildren sha256 occupied toolIndex nameSpace namespaces childIndex children =
      .ok (flattened, namespaces')) : Flattens sha256 occupied namespaces namespaces'
      (children.filterMap (declaredChild nameSpace)) flattened := by
  induction children generalizing namespaces childIndex flattened with
  | nil =>
      cases h
      exact flattens_nil hmet
  | cons child children ih =>
      rw [List.filterMap_cons]
      unfold flattenChildren at h
      by_cases hfunction : typeOf child = js "function"
      · rw [if_neg (not_not_intro hfunction)] at h
        unfold declaredChild
        rw [if_pos hfunction]
        cases hname : optionalString (child.prop "name") with
        | none =>
            rw [hname] at h
            exact ih hmet h
        | some name =>
            rw [hname] at h
            dsimp only at h
            split at h
            · cases h
            · next hcollides =>
              obtain ⟨hfree, hsame⟩ := not_or.mp hcollides
              cases hexisting : namespaces.get? (xaiNamespaceWireName sha256 nameSpace name) with
              | some found =>
                  rw [hexisting, if_pos (by rfl)] at h
                  rw [hexisting] at hsame
                  simp only [Option.any_some, decide_eq_true_eq, not_or, not_not] at hsame
                  obtain ⟨rfl, rfl⟩ := hsame
                  exact (ih hmet h).again hexisting
              | none =>
                  rw [hexisting, if_neg (by simp)] at h
                  obtain ⟨⟨rest, later⟩, hrest, heq⟩ := Lib.bind_eq_ok.mp h
                  cases heq
                  refine (ih (hmet.set hnamed hfree) hrest).function hexisting ?_ ?_
                  · simp [typeOf, stringValue, js]
                  · simp [nameOf, stringValue]
      · rw [if_pos hfunction] at h
        unfold declaredChild
        rw [if_neg hfunction]
        exact ih hmet h

/-- A plain tool goes into the flattened request as it is. -/
theorem Flattens.plain {plain : DeclaredTool}
    (h : Flattens sha256 occupied namespaces namespaces' declared flattened)
    (hplain : plain.nameSpace = none)
    (hidentify : ∀ later, Met sha256 occupied later → identify later tool = some plain) :
    Flattens sha256 occupied namespaces namespaces' (plain :: declared)
      (tool :: flattened) where
  met := h.met
  keeps := h.keeps
  once tools hrecords := by
    rw [eachOnce_cons]
    constructor
    · intro later hlater hmet hnodup
      rw [List.filterMap_cons_some (hidentify later hmet)] at hnodup ⊢
      have hnot : plain ∉ tools := fun hmem =>
        (List.nodup_append.mp hnodup).2.2 _ hmem _ List.mem_cons_self rfl
      rw [setAdd_of_notMem hnot]
      rw [List.append_cons] at hnodup
      rw [(h.once _ (hrecords.plain hplain)).1 later hlater hmet hnodup, List.append_assoc]
      rfl
    · by_cases hmem : plain ∈ tools
      · rw [setAdd_of_mem hmem]
        exact (h.once tools hrecords).2
      · rw [setAdd_of_notMem hmem]
        exact (h.once _ (hrecords.plain hplain)).2

/-- A tool that is not bridged stands for nothing. -/
theorem Flattens.hosted (h : Flattens sha256 occupied namespaces namespaces' declared flattened)
    (hidentify : ∀ later, identify later tool = none) :
    Flattens sha256 occupied namespaces namespaces' declared (tool :: flattened) where
  met := h.met
  keeps := h.keeps
  once tools hrecords := by
    simp only [List.filterMap_cons_none (hidentify _)]
    exact h.once tools hrecords

/-- The name of a bridged tool is occupied, if it has one. -/
def Occupies (occupied : List JsString) (tools : List JsonObject) : Prop :=
  ∀ tool ∈ tools, isBridged tool = true → nameOf tool = [] ∨ nameOf tool ∈ occupied

theorem flattens_flattenTools {flattened : List JsonObject} (hoccupies : Occupies occupied tools)
    (hmet : Met sha256 occupied namespaces)
    (h : flattenTools sha256 occupied namespaces toolIndex tools = .ok (flattened, namespaces')) :
    Flattens sha256 occupied namespaces namespaces' (tools.flatMap declaredBy)
      flattened := by
  induction tools generalizing namespaces toolIndex flattened with
  | nil =>
      cases h
      exact flattens_nil hmet
  | cons tool tools ih =>
      have hrest : Occupies occupied tools := fun other hother =>
        hoccupies other (List.mem_cons_of_mem tool hother)
      rw [List.flatMap_cons]
      unfold flattenTools at h
      unfold declaredBy
      by_cases hnamespace : isNamespace tool = true
      · rw [if_pos hnamespace] at h ⊢
        cases hname : optionalString (tool.prop "name") with
        | none =>
            rw [hname] at h
            exact ih hrest hmet h
        | some nameSpace =>
            rw [hname] at h
            obtain ⟨⟨children, met⟩, hchildren, h⟩ := Lib.bind_eq_ok.mp h
            obtain ⟨⟨rest, later⟩, hlater, heq⟩ := Lib.bind_eq_ok.mp h
            cases heq
            have hfirst := flattens_flattenChildren (optionalString_eq_some hname).1 hmet hchildren
            exact hfirst.append (ih hrest hfirst.met hlater)
      · rw [if_neg hnamespace] at h ⊢
        obtain ⟨⟨rest, later⟩, hlater, heq⟩ := Lib.bind_eq_ok.mp h
        cases heq
        have hflattens := ih hrest hmet hlater
        by_cases hfunction : typeOf tool = js "function"
        · rw [if_pos hfunction]
          refine hflattens.plain rfl fun later hmet => ?_
          have hbridged : isBridged tool = true := by simp [isBridged, hfunction]
          rw [identify, if_pos hfunction,
            hmet.get?_eq_none (hoccupies tool List.mem_cons_self hbridged)]
        · rw [if_neg hfunction]
          by_cases hcustom : typeOf tool = js "custom"
          · rw [if_pos hcustom]
            refine hflattens.plain rfl fun later _ => ?_
            rw [identify, if_neg hfunction, if_pos hcustom]
          · rw [if_neg hcustom]
            refine hflattens.hosted fun later => ?_
            rw [identify, if_neg hfunction, if_neg hcustom]

/-- Without namespaces flattening changes nothing. -/
theorem flattenTools_of_plain (toolIndex : Nat) (h : tools.any isNamespace = false) :
    flattenTools sha256 occupied namespaces toolIndex tools = .ok (tools, namespaces) := by
  induction tools generalizing toolIndex with
  | nil => rfl
  | cons tool tools ih =>
      rw [List.any_cons, Bool.or_eq_false_iff] at h
      rw [flattenTools, if_neg (by simp [h.1]), ih _ h.2]
      rfl

theorem occupies_occupiedNames (tools : List JsonObject) : Occupies (occupiedNames tools) tools := by
  intro tool htool hbridged
  cases hname : optionalString (tool.prop "name") with
  | none =>
      left
      unfold optionalString at hname
      unfold nameOf stringValue
      split at hname
      · cases hname
      · next hnot =>
        split
        · next s hs =>
          cases s with
          | nil => rfl
          | cons c s => exact absurd hs (hnot c s)
        · rfl
  | some name =>
      right
      rw [nameOf_eq hname]
      exact List.mem_filterMap.mpr ⟨tool, List.mem_filter.mpr ⟨htool, hbridged⟩, hname⟩

theorem prop_tools_rewriteToolChoice (namespaces : JsMap JsString XaiNamespaceBinding)
    (body : JsonObject) : (rewriteToolChoice namespaces body).prop "tools" = body.prop "tools" := by
  unfold rewriteToolChoice
  split
  · rfl
  · split
    · rw [prop_assign, if_neg (by decide)]
    · rw [prop_assign, if_neg (by decide)]

/-- What flattening a request leaves: its tools, and the namespaces that tell
what they stand for. -/
theorem flattens_flattenXaiNamespaceTools
    (h : flattenXaiNamespaceTools sha256 body = .ok (flat, namespaces)) :
    Flattens sha256 (occupiedNames (arrayOfObjects (body.prop "tools"))) ∅ namespaces
      ((arrayOfObjects (body.prop "tools")).flatMap declaredBy)
      (arrayOfObjects (flat.prop "tools")) := by
  have hoccupies := occupies_occupiedNames (arrayOfObjects (body.prop "tools"))
  unfold flattenXaiNamespaceTools at h
  dsimp only at h
  split at h
  · obtain ⟨⟨flattened, met⟩, hflattened, heq⟩ := Lib.bind_eq_ok.mp h
    cases heq
    rw [prop_tools_rewriteToolChoice]
    have htools : ∀ input, (assign (assign body "tools" (.array (flattened.map .object))) "input"
        input).prop "tools" = some (.array (flattened.map .object)) := by
      intro input
      rw [prop_assign, if_neg (by decide), prop_assign, if_pos rfl]
    split
    · rw [prop_assign, if_pos rfl, arrayOfObjects_objects]
      exact flattens_flattenTools hoccupies met_empty hflattened
    · rw [htools, arrayOfObjects_objects]
      exact flattens_flattenTools hoccupies met_empty hflattened
  · next hplain =>
    cases h
    exact flattens_flattenTools hoccupies met_empty
      (flattenTools_of_plain 0 (by simpa using hplain))

end StonePlus.Grok
