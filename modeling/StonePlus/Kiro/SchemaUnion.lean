import Mathlib.Data.List.Dedup
import Mathlib.Data.List.Nodup
import StonePlus.Kiro.SchemaAgreement

/-!
# StonePlus.Kiro.SchemaUnion

A union of enumerations and the one enumeration it is collapsed into.

Once the value has the types that the branches name, each branch says whether it lists the
value, and so does the collapsed enumeration.
-/

namespace StonePlus.Kiro

open Lib

variable {regExps : RegExps} {levels : Nat} {path : JsString}
variable {sanitize : List (JsString × Json) → JsString → Sanitizing (List (JsString × Json))}
variable {schema result : List (JsString × Json)}

/-! ## The shape of a union -/

/-- Annotations write nothing but annotations. -/
theorem property?_annotations {entries : List (JsString × Json)}
    (hkeys : ∀ e ∈ entries, e.1 ∈ annotationKeywords)
    (h : entries.foldlM (sanitizeEntry regExps sanitize path) init = .ok result)
    (hkey : key ∉ annotationKeywords) : Json.property? result key = Json.property? init key := by
  induction entries generalizing init with
  | nil =>
      cases h
      rfl
  | cons e entries ih =>
      obtain ⟨hplain, hkeys⟩ := List.forall_mem_cons.mp hkeys
      rw [List.foldlM_cons] at h
      obtain ⟨init', hentry, h⟩ := bind_eq_ok.mp h
      have hunion : isUnionKeyword e.1 = false := by
        have hall : ∀ name ∈ annotationKeywords, isUnionKeyword name = false := by decide
        exact hall _ hplain
      obtain ⟨-, value, -, rfl⟩ := sanitizeEntry_cases hunion hentry
      rw [ih hkeys h]
      cases value with
      | none => rfl
      | some value =>
          exact Json.property?_setProperty_of_ne fun heq => hkey (heq ▸ hplain)

/-- The keywords a schema is checked for before its entries are read. -/
theorem checkUnions_cases (h : checkUnions schema path = .ok ()) :
    (Json.property? schema (js "anyOf") = none ∧ Json.property? schema (js "oneOf") = none) ∨
      ∃ union other, (union, other) ∈ [(js "anyOf", js "oneOf"), (js "oneOf", js "anyOf")] ∧
        (Json.property? schema union).isSome ∧ Json.property? schema other = none ∧
        ∀ e ∈ schema, e.1 = union ∨ e.1 ∈ annotationKeywords := by
  unfold checkUnions at h
  rcases hanyOf : Json.property? schema (js "anyOf") with _ | anyOf <;>
    rcases honeOf : Json.property? schema (js "oneOf") with _ | oneOf
  · exact .inl ⟨rfl, rfl⟩
  · right
    refine ⟨js "oneOf", js "anyOf", by simp, by simp [honeOf], hanyOf, ?_⟩
    simpa [hanyOf, honeOf, or_iff_not_imp_left] using h
  · right
    refine ⟨js "anyOf", js "oneOf", by simp, by simp [hanyOf], honeOf, ?_⟩
    simpa [hanyOf, honeOf, or_iff_not_imp_left] using h
  · simp [hanyOf, honeOf] at h

/-- A union and the branches it is collapsed from. -/
structure Collapses
    (sanitize : List (JsString × Json) → JsString → Sanitizing (List (JsString × Json)))
    (items : List Json) (branches : List (List (JsString × Json))) (oneOf : Bool)
    (collapsed : List (JsString × Json)) : Prop where
  nonempty : items ≠ []
  sanitized : List.Forall₂ (fun item branch => SanitizesTo sanitize item (.object branch)) items
    branches
  enumerated : ∀ branch ∈ branches, isEnumBranch branch = true
  oneType : (branchTypes branches).length ≤ 1
  distinct : oneOf = true → hasDuplicateJsonValues
    (branches.flatMap fun branch => (enumValues? branch).getD []) = false
  collapsed_eq : collapsed = (branchTypes branches).map (fun type => (js "type", .string type)) ++
    [(js "enum", .array (deduplicateJsonValues
      (branches.flatMap fun branch => (enumValues? branch).getD [])))]

theorem collapseKiroUnion_cases (h : collapseKiroUnion sanitize value path oneOf = .ok collapsed) :
    ∃ items branches, value = .array items ∧ Collapses sanitize items branches oneOf collapsed := by
  unfold collapseKiroUnion at h
  split at h
  · next first rest =>
    obtain ⟨branches, hbranches, h⟩ := bind_eq_ok.mp h
    refine ⟨_, branches, rfl, ?_⟩
    split at h
    · next henum =>
      dsimp only at h
      split at h
      · simp at h
      · next htypes =>
        split at h
        · simp at h
        · next hdistinct =>
          cases h
          refine ⟨List.cons_ne_nil _ _, ?_, List.all_eq_true.mp henum, by omega, ?_, rfl⟩
          · have hpairs : List.Forall₂
                (fun item branch => SanitizesTo sanitize item (.object branch))
                ((first :: rest).zipIdx.map Prod.fst) branches := by
              refine List.forall₂_map_left_iff.mpr
                ((forall₂_of_mapM hbranches).imp fun e branch he => ?_)
              obtain ⟨entries, hentries, he⟩ := bind_eq_ok.mp he
              exact ⟨entries, branch, _, expectObject_eq hentries, rfl, he⟩
            rwa [List.zipIdx_map_fst] at hpairs
          · intro hone
            simpa [hone] using hdistinct
    · simp at h
  · simp at h

/-- The collapsed keywords are written as they are. -/
theorem property?_assignCollapsed (hkeys : (collapsed.map Prod.fst).Nodup)
    (h : assignCollapsed path init collapsed = .ok result) (key : JsString) :
    Json.property? result key =
      (Json.property? collapsed key).or (Json.property? init key) := by
  induction collapsed generalizing init with
  | nil =>
      cases h
      rfl
  | cons e collapsed ih =>
      obtain ⟨k, v⟩ := e
      obtain ⟨hnot, hrest⟩ := List.nodup_cons.mp hkeys
      unfold assignCollapsed at h
      split at h
      · simp at h
      · rw [ih hrest h, Json.property?_cons, Json.property?_setProperty]
        split
        · next heq =>
          subst heq
          rw [Json.property?_eq_none hnot]
          rfl
        · rfl

/-- What a union is sanitized into: the collapsed keywords, and annotations. -/
structure UnionImage (regExps : RegExps) (levels : Nat) (schema result : List (JsString × Json))
    (items : List Json) (branches : List (List (JsString × Json))) (keyword : BranchKeyword) :
    Prop where
  isUnion : keyword ≠ .allOf
  union : Json.property? schema (js keyword.name) = some (.array items)
  others : ∀ key, key ≠ js keyword.name → key ∉ annotationKeywords →
    Json.property? schema key = none
  collapses : ∃ collapsed oneOf, (keyword matches .oneOf) = oneOf ∧
    Collapses (sanitizeKiroSchema regExps levels) items branches oneOf collapsed ∧
    ∀ key ∉ annotationKeywords, Json.property? result key = Json.property? collapsed key

theorem Collapses.nodup_keys (h : Collapses sanitize items branches oneOf collapsed) :
    (collapsed.map Prod.fst).Nodup := by
  rw [h.collapsed_eq]
  have hlength := h.oneType
  generalize branchTypes branches = types at hlength ⊢
  obtain _ | ⟨type, _ | ⟨type', rest⟩⟩ := types
  · exact List.nodup_singleton _
  · show [js "type", js "enum"].Nodup
    decide
  · simp at hlength

variable {keyword : BranchKeyword}

theorem sanitizeEntry_union (hunion : keyword ≠ .allOf) {init : List (JsString × Json)}
    {item : Json}
    (h : sanitizeEntry regExps sanitize path init (js keyword.name, item) = .ok result) :
    ∃ oneOf, (keyword matches .oneOf) = oneOf ∧ ∃ collapsed,
      collapseKiroUnion sanitize item (path ++ js "." ++ js keyword.name) oneOf = .ok collapsed ∧
        assignCollapsed (path ++ js "." ++ js keyword.name) init collapsed = .ok result := by
  unfold sanitizeEntry at h
  dsimp only at h
  cases keyword with
  | allOf => exact absurd rfl hunion
  | anyOf =>
      rw [if_neg (by decide), if_neg (by decide), if_neg (by decide), if_neg (by decide),
        if_pos (by decide)] at h
      exact ⟨false, rfl, bind_eq_ok.mp h⟩
  | oneOf =>
      rw [if_neg (by decide), if_neg (by decide), if_neg (by decide), if_neg (by decide),
        if_pos (by decide)] at h
      exact ⟨true, rfl, bind_eq_ok.mp h⟩

/-- The keyword of a union that is read. -/
theorem unionImage_of_foldlM (hunion : keyword ≠ .allOf) (hkeys : (schema.map Prod.fst).Nodup)
    (hsome : (Json.property? schema (js keyword.name)).isSome)
    (hother : ∀ e ∈ schema, e.1 = js keyword.name ∨ e.1 ∈ annotationKeywords)
    (h : schema.foldlM (sanitizeEntry regExps (sanitizeKiroSchema regExps levels) path) [] =
      .ok result) :
    ∃ items branches, UnionImage regExps levels schema result items branches keyword := by
  obtain ⟨item, hitem⟩ := Option.isSome_iff_exists.mp hsome
  obtain ⟨before, after, rfl⟩ := List.append_of_mem (mem_of_property? hitem)
  rw [List.map_append, List.map_cons, List.nodup_middle, List.nodup_cons, ← List.map_append]
    at hkeys
  have hplains : ∀ e ∈ before ++ after, e.1 ∈ annotationKeywords := by
    intro e he
    have hmem : e ∈ before ++ (js keyword.name, item) :: after := by
      rw [List.mem_append, List.mem_cons]
      exact (List.mem_append.mp he).imp_right .inr
    refine (hother e hmem).resolve_left fun heq => hkeys.1 ?_
    have hkey : e.1 ∈ (before ++ after).map Prod.fst := List.mem_map_of_mem he
    exact heq ▸ hkey
  rw [List.foldlM_append] at h
  obtain ⟨first, hbefore, h⟩ := bind_eq_ok.mp h
  rw [List.foldlM_cons] at h
  obtain ⟨second, hentry, hafter⟩ := bind_eq_ok.mp h
  obtain ⟨oneOf, hone, collapsed, hcollapsed, hassign⟩ := sanitizeEntry_union hunion hentry
  obtain ⟨items, branches, rfl, hcollapses⟩ := collapseKiroUnion_cases hcollapsed
  refine ⟨items, branches, hunion, hitem, fun key hkey hplain => ?_,
    collapsed, oneOf, hone, hcollapses, fun key hkey => ?_⟩
  · rcases hsome : Json.property? (before ++ (js keyword.name, .array items) :: after) key with
      _ | value
    · rfl
    · rcases hother _ (mem_of_property? hsome) with heq | hmem
      · exact absurd heq hkey
      · exact absurd hmem hplain
  · rw [property?_annotations (fun e he => hplains e (List.mem_append_right _ he)) hafter hkey,
      property?_assignCollapsed hcollapses.nodup_keys hassign,
      property?_annotations (fun e he => hplains e (List.mem_append_left _ he)) hbefore hkey]
    exact Option.or_none

/-! ## Schemas with few keywords -/

/-- The keywords for the value's kind. -/
def kindKeywords : List String :=
  ["minLength", "maxLength", "pattern", "minimum", "maximum", "exclusiveMinimum",
    "exclusiveMaximum", "multipleOf", "minItems", "maxItems", "uniqueItems", "items",
    "minProperties", "maxProperties", "required", "properties", "additionalProperties"]

/-- A schema with no keyword for the value's kind says nothing about it. -/
theorem kindIssue_eq_none (h : ∀ name ∈ kindKeywords, Json.property? schema (js name) = none)
    (value : Json) (path : JsString) :
    kindIssue regExps (validateSchemaValue regExps levels)
      (fun name => Json.property? schema (js name)) value path = none := by
  have hnone : ∀ names : List String, names ⊆ kindKeywords → ∀ name ∈ names,
      Json.property? schema (js name) = (fun _ => none : String → Option Json) name :=
    fun names hsub name hname => h name (hsub hname)
  cases value with
  | null | bool => rfl
  | string s =>
      exact @validateString_congr regExps s _ _
        (hnone ["minLength", "maxLength", "pattern"] (by decide)) path
  | number n =>
      exact @validateNumber_congr n _ _ (hnone ["minimum", "maximum", "exclusiveMinimum",
        "exclusiveMaximum", "multipleOf"] (by decide)) path
  | array items =>
      have harray := @validateArray_congr items _ _
        (hnone ["minItems", "maxItems", "uniqueItems"] (by decide)) path
      simp only [kindIssue, harray, h "items" (by decide)]
      rfl
  | object entries =>
      have hobject := @validateObject_congr entries _ _
        (hnone ["minProperties", "maxProperties"] (by decide))
        (.inl (h "required" (by decide))) path
      simp only [kindIssue, hobject, h "properties" (by decide),
        h "additionalProperties" (by decide)]
      show (none <|> entries.findSome? fun _ => none) = none
      simp

/-- A schema with a type and an enumeration at most asks for these. -/
theorem validate_typeEnum
    (h : ∀ key ∉ annotationKeywords, key ≠ js "type" → key ≠ js "enum" →
      Json.property? schema key = none) :
    validateSchemaValue regExps (levels + 1) value (.object schema) path = none ↔
      typeOk schema value ∧ enumOk schema value := by
  have hnone : ∀ name ∈ "const" :: "allOf" :: "anyOf" :: "oneOf" :: "not" :: kindKeywords,
      Json.property? schema (js name) = none := by
    intro name hname
    have hall : ∀ name ∈ "const" :: "allOf" :: "anyOf" :: "oneOf" :: "not" :: kindKeywords,
        js name ∉ annotationKeywords ∧ js name ≠ js "type" ∧ js name ≠ js "enum" := by decide
    obtain ⟨hplain, htype, henum⟩ := hall name hname
    exact h _ hplain htype henum
  have hkind := @kindIssue_eq_none regExps levels schema
    (fun name hname => hnone name (by simp [hname])) value path
  rw [validate_eq_none, hkind, hnone "allOf" (by simp), hnone "anyOf" (by simp),
    hnone "oneOf" (by simp)]
  simp [constOk, hnone "const" (by simp), hnone "not" (by simp), validateSchemaBranches]

theorem typeEnum_of_isEnumBranch (h : isEnumBranch schema = true) {key : JsString}
    (htype : key ≠ js "type") (henum : key ≠ js "enum") : Json.property? schema key = none := by
  refine Json.property?_eq_none fun hmem => ?_
  obtain ⟨e, he, rfl⟩ := List.mem_map.mp hmem
  have hkeys := List.all_eq_true.mp (Bool.and_eq_true_iff.mp h).2 e he
  rw [Bool.or_eq_true_iff, beq_iff_eq, beq_iff_eq] at hkeys
  rcases hkeys with hkey | hkey
  · exact htype hkey
  · exact henum hkey

/-! ## Branches -/

/-- What an accepted schema shares with its rewritten form. -/
structure Faithful (regExps : RegExps) (levels : Nat) (schema : Json)
    (result : List (JsString × Json)) : Prop where
  agrees : Agrees regExps levels schema (.object result)
  named : ∀ value, typeOk result value ↔
    ∀ type ∈ namedTypes levels schema, matchesSchemaType value type = true
  type : ∀ type, Json.property? result (js "type") = some type → ∃ name, type = .string name
  enumerated : isEnumBranch result = true → ∀ value, typeOk result value →
    meetsUnionTypes levels value schema = true

/-- The values that a branch lists. -/
def branchValues (branch : List (JsString × Json)) : List Json := (enumValues? branch).getD []

theorem enumOk_iff (h : isEnumBranch branch = true) :
    enumOk branch value ↔ listed (branchValues branch) value = true := by
  obtain ⟨values, hvalues⟩ := Option.isSome_iff_exists.mp (Bool.and_eq_true_iff.mp h).1
  simp [enumOk, branchValues, hvalues]

/-- A branch whose types the value has accepts what its enumeration lists. -/
theorem Faithful.validate_iff (h : Faithful regExps (levels + 1) item branch)
    (henum : isEnumBranch branch = true) (htype : typeOk branch value) (path : JsString) :
    validateSchemaValue regExps (levels + 1) value item path = none ↔
      listed (branchValues branch) value = true := by
  have hagrees := h.agrees value path
  rw [h.enumerated henum value htype, validate_typeEnum fun key _ => typeEnum_of_isEnumBranch henum,
    enumOk_iff henum] at hagrees
  simpa [htype] using hagrees.symm

variable {branches : List (List (JsString × Json))}

theorem listed_flatMap : listed (branches.flatMap branchValues) value = true ↔
      ∃ branch ∈ branches, listed (branchValues branch) value = true := by
  simp only [listed, List.any_flatMap, List.any_eq_true]

/-- The number of pairs that pass a test does not depend on the side it is made on. -/
theorem length_filter_eq {α β : Type} {R : α → β → Prop} {p : α → Bool} {q : β → Bool}
    {as : List α} {bs : List β} (h : List.Forall₂ R as bs)
    (hpq : ∀ a ∈ as, ∀ b ∈ bs, R a b → p a = q b) : (as.filter p).length = (bs.filter q).length := by
  induction h with
  | nil => rfl
  | @cons a b as bs hab _ ih =>
      have hrest := ih fun a ha b hb => hpq a (List.mem_cons_of_mem _ ha) b (List.mem_cons_of_mem _ hb)
      rw [List.filter_cons, List.filter_cons,
        hpq a List.mem_cons_self b List.mem_cons_self hab]
      split
      · rw [List.length_cons, List.length_cons, hrest]
      · exact hrest

/-- Of branches that share no value, one at most lists a given value. -/
theorem length_filter_listed_le_one
    (h : ((branches.flatMap branchValues).map canonicalJson).Nodup) :
    (branches.filter fun branch => listed (branchValues branch) value).length ≤ 1 := by
  induction branches with
  | nil => simp
  | cons branch branches ih =>
      rw [List.flatMap_cons, List.map_append, List.nodup_append'] at h
      rw [List.filter_cons]
      split
      · next hlisted =>
        have hempty : (branches.filter fun branch => listed (branchValues branch) value) = [] := by
          rw [List.filter_eq_nil_iff]
          intro other hother hmem
          exact h.2.2 (listed_iff.mp hlisted)
            (listed_iff.mp (listed_flatMap.mpr ⟨other, hother, hmem⟩))
        simp [hempty]
      · exact ih h.2.1

/-! ## The collapsed keywords -/

theorem mem_branchTypes : name ∈ branchTypes branches ↔
      ∃ branch ∈ branches, Json.property? branch (js "type") = some (.string name) := by
  unfold branchTypes
  rw [List.mem_dedup, List.mem_filterMap]
  refine exists_congr fun branch => and_congr_right fun _ => ?_
  rcases Json.property? branch (js "type") with _ | (_ | _ | _ | type | _ | _) <;> simp

section Collapsed

variable {items : List Json} {branches : List (List (JsString × Json))} {oneOf : Bool}
variable {collapsed : List (JsString × Json)}

theorem Collapses.property?_type (h : Collapses sanitize items branches oneOf collapsed) :
    Json.property? collapsed (js "type") = (branchTypes branches).head?.map Json.string := by
  rw [h.collapsed_eq]
  rcases branchTypes branches with _ | ⟨type, rest⟩
  · rfl
  · simp [Json.property?_cons]

theorem Collapses.enumValues?_eq (h : Collapses sanitize items branches oneOf collapsed) :
    Json.property? collapsed (js "enum") =
      some (.array (deduplicateJsonValues (branches.flatMap branchValues))) := by
  rw [h.collapsed_eq]
  have hne : js "type" ≠ js "enum" := by decide
  induction branchTypes branches with
  | nil =>
      simp only [List.map_nil, List.nil_append, Json.property?_cons, if_true]
      rfl
  | cons type rest ih =>
      rw [List.map_cons, List.cons_append, Json.property?_cons, if_neg hne]
      exact ih

/-- The collapsed type is asked for when each branch's type is. -/
theorem Collapses.typeOk_iff (h : Collapses sanitize items branches oneOf collapsed)
    (htypes : ∀ branch ∈ branches, ∀ type, Json.property? branch (js "type") = some type →
      ∃ name, type = .string name) {value : Json} :
    typeOk collapsed value ↔ ∀ branch ∈ branches, typeOk branch value := by
  unfold typeOk
  rw [h.property?_type]
  have hone := h.oneType
  constructor
  · intro hcollapsed branch hbranch type htype
    obtain ⟨name, rfl⟩ := htypes branch hbranch type htype
    have hmem := mem_branchTypes.mpr ⟨branch, hbranch, htype⟩
    generalize branchTypes branches = types at hone hmem hcollapsed
    obtain _ | ⟨first, rest⟩ := types
    · cases hmem
    · have hnil : rest = [] := List.length_eq_zero_iff.mp (by simpa using hone)
      rw [hnil, List.mem_singleton] at hmem
      exact hcollapsed _ (by simp [hmem])
  · intro hbranches type htype
    obtain ⟨name, hname, rfl⟩ := Option.map_eq_some_iff.mp htype
    obtain ⟨branch, hbranch, htype⟩ := mem_branchTypes.mp (List.mem_of_mem_head? hname)
    exact hbranches branch hbranch _ htype

theorem Collapses.enumOk_iff (h : Collapses sanitize items branches oneOf collapsed)
    {value : Json} :
    enumOk collapsed value ↔ ∃ branch ∈ branches, listed (branchValues branch) value = true := by
  unfold enumOk enumValues?
  rw [h.enumValues?_eq]
  simp only [Option.some.injEq, forall_eq', listed_deduplicateJsonValues, listed_flatMap]

end Collapsed

/-! ## Unions -/

/-- The verdict of a union whose branches list the value or do not. -/
theorem validateSchemaBranches_eq_none (hunion : keyword ≠ .allOf) (hnonempty : items ≠ [])
    (hcount : (items.filter fun item => (validate item).isNone).length = n)
    (hone : keyword = .oneOf → n ≤ 1) :
    validateSchemaBranches validate (some (.array items)) path keyword = none ↔ n ≠ 0 := by
  obtain ⟨first, rest, rfl⟩ := List.exists_cons_of_ne_nil hnonempty
  cases keyword with
  | allOf => exact absurd rfl hunion
  | anyOf =>
      simp only [validateSchemaBranches, hcount, issueIf_eq_none, decide_eq_false_iff_not, ne_eq]
  | oneOf =>
      have := hone rfl
      simp only [validateSchemaBranches, hcount, issueIf_eq_none, decide_eq_false_iff_not, ne_eq]
      omega

theorem UnionImage.unionBranches
    (h : UnionImage regExps levels schema result items branches keyword) :
    unionBranches schema = items := by
  have hunion := h.isUnion
  have hitems := h.union
  unfold StonePlus.Kiro.unionBranches
  cases keyword with
  | allOf => exact absurd rfl hunion
  | anyOf =>
      have hother := h.others (js "oneOf") (by decide) (by decide)
      change Json.property? schema (js "anyOf") = _ at hitems
      simp [hitems, hother]
  | oneOf =>
      have hother := h.others (js "anyOf") (by decide) (by decide)
      change Json.property? schema (js "oneOf") = _ at hitems
      simp [hitems, hother]

theorem meetsUnionTypes_iff
    (h : ∀ name ∈ ["items", "properties", "additionalProperties"],
      Json.property? schema (js name) = none) (value : Json) :
    meetsUnionTypes (levels + 1) value (.object schema) = true ↔
      ∀ item ∈ unionBranches schema, ∀ type ∈ namedTypes levels item,
        matchesSchemaType value type = true := by
  have hitems := h "items" (by simp)
  have hproperties := h "properties" (by simp)
  have hadditional := h "additionalProperties" (by simp)
  cases value with
  | array items =>
      rw [meetsUnionTypes_array, hitems]
      simp [itemsMeet]
  | object entries =>
      rw [meetsUnionTypes_object, hproperties, hadditional]
      simp [propertyMeets, meetsWhere, Json.property?]
  | null | bool | number | string => simp [meetsUnionTypes]

theorem exists_of_forall₂_right {α β : Type} {R : α → β → Prop} {as : List α} {bs : List β}
    (h : List.Forall₂ R as bs) {b : β} (hb : b ∈ bs) : ∃ a ∈ as, R a b := by
  induction h with
  | nil => cases hb
  | @cons a b' as bs hab _ ih =>
      rcases List.mem_cons.mp hb with rfl | hb
      · exact ⟨a, List.mem_cons_self, hab⟩
      · obtain ⟨a', ha', h⟩ := ih hb
        exact ⟨a', List.mem_cons_of_mem _ ha', h⟩

/-- A union says what its branches say together. -/
theorem UnionImage.validate_iff
    (h : UnionImage regExps levels schema result items branches keyword) :
    validateSchemaValue regExps (levels + 1) value (.object schema) path = none ↔
      validateSchemaBranches (fun branch => validateSchemaValue regExps levels value branch path)
        (some (.array items)) path keyword = none := by
  have hnone : ∀ name ∈ "type" :: "enum" :: "const" :: "allOf" :: "not" :: kindKeywords,
      Json.property? schema (js name) = none := by
    intro name hname
    have hall : ∀ keyword : BranchKeyword, keyword ≠ .allOf →
        ∀ name ∈ "type" :: "enum" :: "const" :: "allOf" :: "not" :: kindKeywords,
          js name ≠ js keyword.name ∧ js name ∉ annotationKeywords := by
      intro keyword hunion
      cases keyword with
      | allOf => exact absurd rfl hunion
      | anyOf | oneOf => decide
    have hname := hall keyword h.isUnion name hname
    exact h.others _ hname.1 hname.2
  have hkind := @kindIssue_eq_none regExps levels schema
    (fun name hname => hnone name (by simp [hname])) value path
  have hunion := h.isUnion
  have hitems := h.union
  rw [validate_eq_none, hkind, hnone "allOf" (by simp)]
  cases keyword with
  | allOf => exact absurd rfl hunion
  | anyOf =>
      have hother := h.others (js "oneOf") (by decide) (by decide)
      change Json.property? schema (js "anyOf") = _ at hitems
      rw [hitems, hother]
      simp [typeOk, enumOk, constOk, enumValues?, hnone "type" (by simp), hnone "enum" (by simp),
        hnone "const" (by simp), hnone "not" (by simp), validateSchemaBranches]
  | oneOf =>
      have hother := h.others (js "anyOf") (by decide) (by decide)
      change Json.property? schema (js "oneOf") = _ at hitems
      rw [hitems, hother]
      simp [typeOk, enumOk, constOk, enumValues?, hnone "type" (by simp), hnone "enum" (by simp),
        hnone "const" (by simp), hnone "not" (by simp), validateSchemaBranches]

/-- A value with the types that the branches name satisfies the union if a branch lists it. -/
theorem UnionImage.validate_of_types {items : List Json}
    (h : UnionImage regExps (levels + 1) schema result items branches keyword)
    (hbranches : List.Forall₂ (fun item branch => Faithful regExps (levels + 1) item branch) items
      branches) {value : Json} (htypes : ∀ branch ∈ branches, typeOk branch value)
    (path : JsString) :
    validateSchemaValue regExps (levels + 2) value (.object schema) path = none ↔
      ∃ branch ∈ branches, listed (branchValues branch) value = true := by
  obtain ⟨collapsed, oneOf, hone, hcollapses, -⟩ := h.collapses
  have hcount : (items.filter fun item =>
      (validateSchemaValue regExps (levels + 1) value item path).isNone).length =
        (branches.filter fun branch => listed (branchValues branch) value).length := by
    refine length_filter_eq hbranches fun item _ branch hbranch hfaithful => ?_
    rw [Bool.eq_iff_iff, Option.isNone_iff_eq_none]
    exact hfaithful.validate_iff (hcollapses.enumerated branch hbranch) (htypes branch hbranch) path
  have hle : keyword = .oneOf →
      (branches.filter fun branch => listed (branchValues branch) value).length ≤ 1 := by
    rintro rfl
    exact length_filter_listed_le_one (nodup_of_no_duplicates (hcollapses.distinct hone.symm))
  rw [h.validate_iff, validateSchemaBranches_eq_none h.isUnion hcollapses.nonempty hcount hle,
    Ne, List.length_eq_zero_iff, List.filter_eq_nil_iff]
  simp

/-- A union agrees with the enumeration it is collapsed into. -/
theorem UnionImage.faithful {items : List Json}
    (h : UnionImage regExps (levels + 1) schema result items branches keyword)
    (hbranches : List.Forall₂ (fun item branch => Faithful regExps (levels + 1) item branch) items
      branches) : Faithful regExps (levels + 2) (.object schema) result := by
  obtain ⟨collapsed, oneOf, hone, hcollapses, hread⟩ := h.collapses
  have hnamedKey : ∀ name ∈ ["type", "enum"],
      Json.property? result (js name) = Json.property? collapsed (js name) := by
    intro name hname
    refine hread _ ?_
    rcases List.mem_pair.mp hname with rfl | rfl <;> decide
  have htypes : ∀ branch ∈ branches, ∀ type, Json.property? branch (js "type") = some type →
      ∃ name, type = .string name := by
    intro branch hbranch
    obtain ⟨item, -, hfaithful⟩ := exists_of_forall₂_right hbranches hbranch
    exact hfaithful.type
  have htypeOk : ∀ value, typeOk result value ↔ ∀ branch ∈ branches, typeOk branch value := by
    intro value
    rw [← hcollapses.typeOk_iff htypes, typeOk, typeOk, hnamedKey "type" (by simp)]
  have henumOk : ∀ value, enumOk result value ↔
      ∃ branch ∈ branches, listed (branchValues branch) value = true := by
    intro value
    rw [← hcollapses.enumOk_iff, enumOk, enumOk, enumValues?, enumValues?,
      hnamedKey "enum" (by simp)]
  -- The value has the types that the union names when it has the type of each branch.
  have hnamed : ∀ value, (∀ branch ∈ branches, typeOk branch value) ↔
      ∀ item ∈ items, ∀ type ∈ namedTypes (levels + 1) item,
        matchesSchemaType value type = true := by
    intro value
    constructor
    · intro hall item hitem
      obtain ⟨branch, hbranch, hfaithful⟩ := exists_of_forall₂_right hbranches.flip hitem
      exact (hfaithful.named value).mp (hall branch hbranch)
    · intro hall branch hbranch
      obtain ⟨item, hitem, hfaithful⟩ := exists_of_forall₂_right hbranches hbranch
      exact (hfaithful.named value).mpr (hall item hitem)
  have hmeets : ∀ value, meetsUnionTypes (levels + 2) value (.object schema) = true ↔
      ∀ branch ∈ branches, typeOk branch value := by
    intro value
    rw [hnamed, meetsUnionTypes_iff fun name hname => ?_, h.unionBranches]
    have hkeys : ∀ keyword : BranchKeyword,
        ∀ name ∈ ["items", "properties", "additionalProperties"],
          js name ≠ js keyword.name ∧ js name ∉ annotationKeywords := by
      intro keyword
      cases keyword <;> decide
    exact h.others _ (hkeys keyword name hname).1 (hkeys keyword name hname).2
  refine ⟨fun value path => ?_, fun value => ?_, fun type htype => ?_, fun _ value htype => ?_⟩
  · have hfew : ∀ key ∉ annotationKeywords, key ≠ js "type" → key ≠ js "enum" →
        Json.property? result key = none := by
      intro key hkey htype henum
      rw [hread key hkey]
      refine Json.property?_eq_none fun hmem => ?_
      rw [hcollapses.collapsed_eq] at hmem
      simp [Ne.symm htype, henum] at hmem
    rw [validate_typeEnum hfew, htypeOk, henumOk, hmeets]
    constructor
    · rintro ⟨htypes, hlisted⟩
      exact ⟨(h.validate_of_types hbranches htypes path).mpr hlisted, htypes⟩
    · rintro ⟨hvalid, htypes⟩
      exact ⟨htypes, (h.validate_of_types hbranches htypes path).mp hvalid⟩
  · have htype : Json.property? schema (js "type") = none := by
      have hkeys : ∀ keyword : BranchKeyword, js "type" ≠ js keyword.name := by
        intro keyword
        cases keyword <;> decide
      exact h.others _ (hkeys keyword) (by decide)
    rw [htypeOk, hnamed, namedTypes, h.unionBranches, htype]
    simp only [Option.toList_none, List.nil_append, List.mem_flatMap, forall_exists_index, and_imp]
    exact ⟨fun hall type item hitem => hall item hitem type,
      fun hall item hitem type => hall type item hitem⟩
  · rw [hnamedKey "type" (by simp), hcollapses.property?_type] at htype
    obtain ⟨name, -, rfl⟩ := Option.map_eq_some_iff.mp htype
    exact ⟨name, rfl⟩
  · exact (hmeets value).mpr ((htypeOk value).mp htype)

end StonePlus.Kiro
