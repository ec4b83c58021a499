import Mathlib.Data.List.Forall2
import StonePlus.Kiro.SchemaRewrite

/-!
# StonePlus.Kiro.SchemaAgreement

A sanitized schema accepts what the schema accepts, but for values that a union lists under a
branch that lacks the type of another.

The induction is on the depth.  A schema without unions agrees with its image keyword by
keyword; a union agrees with its enumeration through the branches.
-/

namespace StonePlus.Kiro

open Lib

variable {regExps : RegExps} {levels : Nat}

/-- The rewritten schema accepts what the schema accepts and may be written without unions. -/
def Agrees (regExps : RegExps) (levels : Nat) (schema schema' : Json) : Prop :=
  ∀ value path, validateSchemaValue regExps levels value schema' path = none ↔
    validateSchemaValue regExps levels value schema path = none ∧
      meetsUnionTypes levels value schema = true

theorem agrees_bool (b : Bool) : Agrees regExps levels (.bool b) (.bool b) := by
  intro value path
  cases levels <;> simp [meetsUnionTypes]

/-- What the induction hypothesis gives for the schemas one level below. -/
def SanitizerAgrees (regExps : RegExps) (levels : Nat) : Prop :=
  ∀ schema schema', Json.distinctKeys schema = true →
    SanitizesTo (sanitizeKiroSchema regExps levels) schema schema' →
    Agrees regExps levels schema schema'

theorem mem_of_property? (h : Json.property? entries key = some value) :
    (key, value) ∈ entries := by
  obtain ⟨e, he, rfl⟩ := Option.map_eq_some_iff.mp h
  have hkey : e.1 = key := by simpa using List.find?_some he
  exact hkey ▸ List.mem_of_find?_eq_some he

/-! ## Keywords that stay -/

theorem validateString_congr {s : JsString} {keyword keyword' : String → Option Json}
    (h : ∀ name ∈ ["minLength", "maxLength", "pattern"], keyword' name = keyword name)
    (path : JsString) :
    validateString regExps s keyword' path = validateString regExps s keyword path := by
  unfold validateString
  rw [h _ (by simp), h _ (by simp), h _ (by simp)]

theorem validateNumber_congr {n : JsNumber} {keyword keyword' : String → Option Json}
    (h : ∀ name ∈ ["minimum", "maximum", "exclusiveMinimum", "exclusiveMaximum", "multipleOf"],
      keyword' name = keyword name) (path : JsString) :
    validateNumber n keyword' path = validateNumber n keyword path := by
  unfold validateNumber
  rw [h _ (by simp), h _ (by simp), h _ (by simp), h _ (by simp), h _ (by simp)]

theorem validateArray_congr {items : List Json} {keyword keyword' : String → Option Json}
    (h : ∀ name ∈ ["minItems", "maxItems", "uniqueItems"], keyword' name = keyword name)
    (path : JsString) : validateArray items keyword' path = validateArray items keyword path := by
  unfold validateArray
  rw [h _ (by simp), h _ (by simp), h _ (by simp)]

/-- An empty list of required names may be left out. -/
theorem validateObject_congr {entries : List (JsString × Json)}
    {keyword keyword' : String → Option Json}
    (h : ∀ name ∈ ["minProperties", "maxProperties"], keyword' name = keyword name)
    (hrequired : keyword' "required" = keyword "required" ∨
      keyword "required" = some (.array []) ∧ keyword' "required" = none) (path : JsString) :
    validateObject entries keyword' path = validateObject entries keyword path := by
  unfold validateObject
  rw [h _ (by simp), h _ (by simp)]
  rcases hrequired with hrequired | ⟨hrequired, hrequired'⟩
  · rw [hrequired]
  · rw [hrequired, hrequired']
    rfl

/-! ## Schemas without unions -/

/-- A schema under a keyword, and the one it is rewritten into. -/
inductive Subschema (regExps : RegExps) (levels : Nat) : Json → Json → Prop
  | bool (b : Bool) : Subschema regExps levels (.bool b) (.bool b)
  | object (entries entries' : List (JsString × Json))
      (h : Agrees regExps levels (.object entries) (.object entries')) :
      Subschema regExps levels (.object entries) (.object entries')

theorem Subschema.agrees (h : Subschema regExps levels schema schema') :
    Agrees regExps levels schema schema' := by
  cases h with
  | bool b => exact agrees_bool b
  | object entries entries' h => exact h

/-- A value under a key and the value it is rewritten into, both absent or related. -/
inductive Related (R : Json → Json → Prop) : Option Json → Option Json → Prop
  | none : Related R none none
  | some {item item' : Json} (h : R item item') : Related R (some item) (some item')

/-- The properties of a schema, rewritten one by one. -/
inductive Properties (regExps : RegExps) (levels : Nat) : Json → Json → Prop
  | mk (properties properties' : List (JsString × Json))
      (h : ∀ name, Related (Subschema regExps levels) (Json.property? properties name)
        (Json.property? properties' name)) :
      Properties regExps levels (.object properties) (.object properties')

/-- A schema without unions and what it is rewritten into, keyword by keyword. -/
structure PlainImage (regExps : RegExps) (levels : Nat) (schema result : List (JsString × Json)) :
    Prop where
  kept : ∀ key, key ∉ rewrittenKeywords → key ≠ js "enum" →
    Json.property? result key = Json.property? schema key
  enumOk : ∀ value, enumOk result value ↔ enumOk schema value ∧ constOk schema value
  const : Json.property? result (js "const") = none
  type : ∀ type, Json.property? result (js "type") = some type → ∃ name, type = .string name
  combined : ∀ name ∈ ["allOf", "anyOf", "oneOf", "not"],
    Json.property? schema (js name) = none ∧ Json.property? result (js name) = none
  required : Json.property? result (js "required") = Json.property? schema (js "required") ∨
    Json.property? schema (js "required") = some (.array []) ∧
      Json.property? result (js "required") = none
  subschema : ∀ name ∈ ["additionalProperties", "items"],
    Related (Subschema regExps levels) (Json.property? schema (js name))
      (Json.property? result (js name))
  properties : Related (Properties regExps levels) (Json.property? schema (js "properties"))
    (Json.property? result (js "properties"))

variable {schema result : List (JsString × Json)}

theorem PlainImage.unionBranches (h : PlainImage regExps levels schema result) :
    unionBranches schema = [] := by
  simp [StonePlus.Kiro.unionBranches, (h.combined "anyOf" (by simp)).1,
    (h.combined "oneOf" (by simp)).1]

/-- Whether the items of an array meet the unions of the schema for them. -/
def itemsMeet (levels : Nat) (schema : Option Json) (items : List Json) : Bool :=
  match schema with
  | some schema => items.all fun item => meetsUnionTypes levels item schema
  | none => true

/-- What a schema for items says about an array. -/
def itemsIssue (regExps : RegExps) (levels : Nat) (schema : Option Json) (items : List Json)
    (path : JsString) : Option SchemaValidationIssue :=
  schema.bind fun schema => items.zipIdx.findSome? fun (item, index) =>
    validateSchemaValue regExps levels item schema (path ++ js "[" ++ natToString index ++ js "]")

theorem items_agree {schema : Option Json} (h : Related (Subschema regExps levels) schema schema')
    (items : List Json) (path : JsString) : itemsIssue regExps levels schema' items path = none ↔
      itemsIssue regExps levels schema items path = none ∧
        itemsMeet levels schema items = true := by
  unfold itemsIssue itemsMeet
  cases h with
  | none => simp
  | @some item item' h =>
      simp only [Option.bind_some, List.findSome?_eq_none_iff, List.all_eq_true, Prod.forall,
        h.agrees _ _]
      constructor
      · intro hall
        refine ⟨fun v index hmem => (hall v index hmem).1, fun v hv => ?_⟩
        obtain ⟨index, hindex⟩ := List.mem_iff_getElem?.mp hv
        exact (hall v index (List.mk_mem_zipIdx_iff_getElem?.mpr hindex)).2
      · intro hall v index hmem
        exact ⟨hall.1 v index hmem, hall.2 v (List.fst_mem_of_mem_zipIdx hmem)⟩

/-- What a schema says about a property it does not name. -/
def additionalIssue (regExps : RegExps) (levels : Nat) (additional : Option Json) (value : Json)
    (path : JsString) : Option SchemaValidationIssue :=
  match additional with
  | some (.bool false) => some ⟨path, js "additional property is not allowed"⟩
  | some (.bool true) => validateSchemaValue regExps levels value (.bool true) path
  | some (.object schema) => validateSchemaValue regExps levels value (.object schema) path
  | _ => none

/-- What an object schema says about one property. -/
def propertyIssue (regExps : RegExps) (levels : Nat) (properties additional : Option Json)
    (path : JsString) (entry : JsString × Json) : Option SchemaValidationIssue :=
  let properties := match properties with
    | some (.object properties) => properties
    | _ => []
  match Json.property? properties entry.1 with
  | some propertySchema =>
    validateSchemaValue regExps levels entry.2 propertySchema (schemaPropertyPath path entry.1)
  | none => additionalIssue regExps levels additional entry.2 (schemaPropertyPath path entry.1)

/-- Whether a value meets the unions of a schema, where there is one. -/
def meetsWhere (levels : Nat) (schema : Option Json) (value : Json) : Bool :=
  match schema with
  | some schema => meetsUnionTypes levels value schema
  | none => true

/-- Whether a property meets the unions of its schema. -/
def propertyMeets (levels : Nat) (properties additional : Option Json) (entry : JsString × Json) :
    Bool :=
  let properties := match properties with
    | some (.object properties) => properties
    | _ => []
  match Json.property? properties entry.1 with
  | some propertySchema => meetsUnionTypes levels entry.2 propertySchema
  | none => meetsWhere levels additional entry.2

theorem additional_agrees (h : Related (Subschema regExps levels) additional additional')
    (value : Json) (path : JsString) :
    additionalIssue regExps levels additional' value path = none ↔
      additionalIssue regExps levels additional value path = none ∧
        meetsWhere levels additional value = true := by
  cases h with
  | none => simp [additionalIssue, meetsWhere]
  | some h =>
      cases h with
      | bool b => cases b <;> cases levels <;> simp [additionalIssue, meetsWhere, meetsUnionTypes]
      | object entries entries' h => exact h value path

theorem property_agrees (h : Related (Properties regExps levels) properties properties')
    (hadditional : Related (Subschema regExps levels) additional additional') (path : JsString)
    (entry : JsString × Json) :
    propertyIssue regExps levels properties' additional' path entry = none ↔
      propertyIssue regExps levels properties additional path entry = none ∧
        propertyMeets levels properties additional entry = true := by
  have hrest := additional_agrees hadditional entry.2 (schemaPropertyPath path entry.1)
  unfold propertyIssue propertyMeets
  cases h with
  | none => exact hrest
  | some h =>
      obtain ⟨properties, properties', h⟩ := h
      dsimp only
      have hname := h entry.1
      generalize Json.property? properties entry.1 = schema at hname ⊢
      generalize Json.property? properties' entry.1 = schema' at hname ⊢
      cases hname with
      | none => exact hrest
      | some h => exact h.agrees entry.2 _

theorem properties_agree (h : Related (Properties regExps levels) properties properties')
    (hadditional : Related (Subschema regExps levels) additional additional') (path : JsString)
    (entries : List (JsString × Json)) :
    entries.findSome? (propertyIssue regExps levels properties' additional' path) = none ↔
      entries.findSome? (propertyIssue regExps levels properties additional path) = none ∧
        entries.all (propertyMeets levels properties additional) = true := by
  simp only [List.findSome?_eq_none_iff, List.all_eq_true,
    property_agrees h hadditional path]
  exact forall₂_and

theorem meetsUnionTypes_array (items : List Json) :
    meetsUnionTypes (levels + 1) (.array items) (.object schema) =
      (((unionBranches schema).flatMap (namedTypes levels)).all (matchesSchemaType (.array items)) &&
        itemsMeet levels (Json.property? schema (js "items")) items) := rfl

theorem meetsUnionTypes_object (entries : List (JsString × Json)) :
    meetsUnionTypes (levels + 1) (.object entries) (.object schema) =
      (((unionBranches schema).flatMap (namedTypes levels)).all
          (matchesSchemaType (.object entries)) &&
        entries.all (propertyMeets levels (Json.property? schema (js "properties"))
          (Json.property? schema (js "additionalProperties")))) := rfl

/-- The keywords for the value's kind. -/
theorem PlainImage.kindIssue_agrees (h : PlainImage regExps levels schema result) (value : Json)
    (path : JsString) :
    kindIssue regExps (validateSchemaValue regExps levels)
        (fun name => Json.property? result (js name)) value path = none ↔
      kindIssue regExps (validateSchemaValue regExps levels)
          (fun name => Json.property? schema (js name)) value path = none ∧
        meetsUnionTypes (levels + 1) value (.object schema) = true := by
  have hkept : ∀ names : List String, (∀ name ∈ names,
      js name ∉ rewrittenKeywords ∧ js name ≠ js "enum") → ∀ name ∈ names,
      Json.property? result (js name) = Json.property? schema (js name) :=
    fun names hnames name hname => h.kept _ (hnames name hname).1 (hnames name hname).2
  cases value with
  | null | bool => simp [kindIssue, meetsUnionTypes, h.unionBranches]
  | string s =>
      have hsame := @validateString_congr regExps s _ _
        (hkept ["minLength", "maxLength", "pattern"] (by decide)) path
      simp [kindIssue, meetsUnionTypes, h.unionBranches, hsame]
  | number n =>
      have hsame := @validateNumber_congr n _ _ (hkept ["minimum", "maximum", "exclusiveMinimum",
        "exclusiveMaximum", "multipleOf"] (by decide)) path
      simp [kindIssue, meetsUnionTypes, h.unionBranches, hsame]
  | array items =>
      have hsame := @validateArray_congr items _ _
        (hkept ["minItems", "maxItems", "uniqueItems"] (by decide)) path
      have hitems := items_agree (h.subschema "items" (by simp)) items path
      show (validateArray items (fun name => Json.property? result (js name)) path <|>
          itemsIssue regExps levels (Json.property? result (js "items")) items path) = none ↔
        (validateArray items (fun name => Json.property? schema (js name)) path <|>
          itemsIssue regExps levels (Json.property? schema (js "items")) items path) = none ∧ _
      simp [meetsUnionTypes_array, h.unionBranches, hsame, hitems, and_assoc]
  | object entries =>
      have hsame := @validateObject_congr entries _ _
        (hkept ["minProperties", "maxProperties"] (by decide)) h.required path
      have hproperties := properties_agree h.properties (h.subschema "additionalProperties" (by simp))
        path entries
      show (validateObject entries (fun name => Json.property? result (js name)) path <|>
          entries.findSome? (propertyIssue regExps levels (Json.property? result (js "properties"))
            (Json.property? result (js "additionalProperties")) path)) = none ↔
        (validateObject entries (fun name => Json.property? schema (js name)) path <|>
          entries.findSome? (propertyIssue regExps levels (Json.property? schema (js "properties"))
            (Json.property? schema (js "additionalProperties")) path)) = none ∧ _
      simp [meetsUnionTypes_object, h.unionBranches, hsame, hproperties, and_assoc]

theorem PlainImage.agrees (h : PlainImage regExps levels schema result) :
    Agrees regExps (levels + 1) (.object schema) (.object result) := by
  intro value path
  have htype : typeOk result value ↔ typeOk schema value := by
    unfold typeOk
    rw [h.kept _ (by decide) (by decide)]
  have hconst : constOk result value := by
    intro constant hsome
    rw [h.const] at hsome
    cases hsome
  have hallOf := h.combined "allOf" (by simp)
  have hanyOf := h.combined "anyOf" (by simp)
  have honeOf := h.combined "oneOf" (by simp)
  have hnot := h.combined "not" (by simp)
  rw [validate_eq_none, validate_eq_none, htype, h.enumOk, h.kindIssue_agrees]
  simp only [hconst, hallOf, hanyOf, honeOf, hnot, validateSchemaBranches, true_and, and_assoc,
    reduceCtorEq, false_implies, implies_true]

/-! ## Images of schemas without unions -/

theorem related_of_forall₂
    (h : List.Forall₂ (fun e e' => e'.1 = e.1 ∧ R e.2 e'.2) properties sanitized)
    (name : JsString) :
    Related R (Json.property? properties name) (Json.property? sanitized name) := by
  induction h with
  | nil => exact .none
  | cons he _ ih =>
      rw [Json.property?_cons, Json.property?_cons, he.1]
      split
      · exact .some he.2
      · exact ih

/-- A rewritten schema below, by the induction hypothesis. -/
theorem SanitizerAgrees.subschema (h : SanitizerAgrees regExps levels)
    (hkeys : Json.distinctKeys item = true)
    (hitem : SanitizesTo (sanitizeKiroSchema regExps levels) item item') :
    Subschema regExps levels item item' := by
  have hagrees := h item item' hkeys hitem
  obtain ⟨entries, entries', -, rfl, rfl, -⟩ := hitem
  exact .object entries entries' hagrees

theorem enumOk_congr (h : enumValues? result = enumValues? schema) :
    enumOk result value ↔ enumOk schema value := by
  unfold enumOk
  rw [h]

/-- Folding a constant into the enumeration asks for both. -/
theorem enumOk_foldConst (constValue value : Json) :
    enumOk (foldConst result constValue) value ↔
      enumOk result value ∧ jsonValuesEqual constValue value = true := by
  unfold enumOk foldConst
  have henum : ∀ values, enumValues? (Json.setProperty (js "enum") (.array values) result) =
      some values := fun values => by simp [enumValues?]
  rw [henum]
  simp only [Option.some.injEq, forall_eq']
  rcases enumValues? result with _ | values
  · simp [listed]
  · simp only [Option.some.injEq, forall_eq']
    split
    · next hmem =>
      constructor
      · intro h
        have heq : jsonValuesEqual constValue value = true := by simpa [listed] using h
        refine ⟨?_, heq⟩
        rw [listed_iff, ← jsonValuesEqual_iff.mp heq, ← listed_iff]
        exact hmem
      · rintro ⟨-, heq⟩
        simpa [listed] using heq
    · next hmem =>
      constructor
      · intro h
        simp [listed] at h
      · rintro ⟨h, heq⟩
        refine absurd ?_ hmem
        rw [listed_iff, ← jsonValuesEqual_iff.mp heq, ← listed_iff] at h
        exact h

variable {sanitize : List (JsString × Json) → JsString → Sanitizing (List (JsString × Json))}

theorem Rewrites.of_kept (h : Rewrites sanitize key item value) (hkey : key ∉ rewrittenKeywords) :
    value = some item := by
  cases h with
  | keep => rfl
  | const | properties | emptyRequired | required => exact absurd (by decide) hkey
  | flag _ hname | schema _ hname =>
      rcases hname with rfl | rfl <;> exact absurd (by decide) hkey

theorem Rewrites.of_type (h : Rewrites sanitize (js "type") item value) :
    ∃ name, item = .string name := by
  generalize hkey : js "type" = key at h
  cases h with
  | keep _ _ _ htype => exact htype hkey.symm
  | const | properties | emptyRequired | required => exact absurd hkey (by decide)
  | flag _ hname | schema _ hname =>
      rcases hname with rfl | rfl <;> exact absurd hkey (by decide)

theorem Rewrites.of_const (h : Rewrites sanitize (js "const") item value) : value = none := by
  generalize hkey : js "const" = key at h
  cases h with
  | const => rfl
  | properties | required => exact absurd hkey (by decide)
  | emptyRequired => rfl
  | flag _ hname | schema _ hname =>
      rcases hname with rfl | rfl <;> exact absurd hkey (by decide)
  | keep _ _ hname => exact absurd (hkey ▸ by decide) hname

theorem Rewrites.of_required (h : Rewrites sanitize (js "required") item value) :
    value = some item ∨ item = .array [] ∧ value = none := by
  generalize hkey : js "required" = key at h
  cases h with
  | emptyRequired => exact .inr ⟨rfl, rfl⟩
  | required => exact .inl rfl
  | const | properties => exact absurd hkey (by decide)
  | flag _ hname | schema _ hname =>
      rcases hname with rfl | rfl <;> exact absurd hkey (by decide)
  | keep _ _ hname => exact absurd (hkey ▸ by decide) hname

theorem Rewrites.of_properties (h : Rewrites sanitize (js "properties") item value) :
    ∃ properties sanitized, item = .object properties ∧ value = some (.object sanitized) ∧
      List.Forall₂ (fun e e' => e'.1 = e.1 ∧ SanitizesTo sanitize e.2 e'.2) properties
        sanitized := by
  generalize hkey : js "properties" = key at h
  cases h with
  | properties properties sanitized h => exact ⟨properties, sanitized, rfl, rfl, h⟩
  | const | emptyRequired | required => exact absurd hkey (by decide)
  | flag _ hname | schema _ hname =>
      rcases hname with rfl | rfl <;> exact absurd hkey (by decide)
  | keep _ _ hname => exact absurd (hkey ▸ by decide) hname

theorem Rewrites.of_schema (hname : name ∈ ["additionalProperties", "items"])
    (h : Rewrites sanitize (js name) item value) : (∃ b, item = .bool b ∧ value = some (.bool b)) ∨
      ∃ item', value = some item' ∧ SanitizesTo sanitize item item' := by
  have hkeys : js name = js "additionalProperties" ∨ js name = js "items" := by
    rcases List.mem_pair.mp hname with rfl | rfl
    · exact .inl rfl
    · exact .inr rfl
  generalize js name = key at h hkeys
  cases h with
  | flag _ _ b => exact .inl ⟨b, rfl, rfl⟩
  | schema _ _ _ item' h => exact .inr ⟨item', rfl, h⟩
  | const | properties | emptyRequired | required =>
      rcases hkeys with hkey | hkey <;> exact absurd hkey (by decide)
  | keep _ _ hname =>
      rcases hkeys with rfl | rfl <;> exact absurd (by decide) hname

/-- The entries that are left when the constant, if there is one, is folded in. -/
def foldConst? (result : List (JsString × Json)) (constant : Option Json) :
    List (JsString × Json) :=
  match constant with
  | some constValue => foldConst result constValue
  | none => result

/-- A schema without unions has a plain image. -/
theorem plainImage (hsub : SanitizerAgrees regExps levels)
    (hkeys : Json.distinctKeys (.object schema) = true)
    (hanyOf : Json.property? schema (js "anyOf") = none)
    (honeOf : Json.property? schema (js "oneOf") = none)
    (himage : Image (sanitizeKiroSchema regExps levels) schema result) :
    PlainImage regExps levels schema
      (foldConst? result (Json.property? schema (js "const"))) := by
  generalize hconst : Json.property? schema (js "const") = constant
  have hdistinct := (Json.distinctKeys_object.mp hkeys).2
  have hread : ∀ key, key ≠ js "enum" →
      Json.property? (foldConst? result constant) key = Json.property? result key := by
    intro key hkey
    cases constant with
    | none => rfl
    | some constValue => exact property?_foldConst hkey
  have hsame : ∀ key, key ∉ rewrittenKeywords →
      Json.property? result key = Json.property? schema key := by
    intro key hkey
    rcases hitem : Json.property? schema key with _ | item
    · exact (himage key).1 hitem
    · exact ((himage key).2 item hitem).2.of_kept hkey
  refine ⟨fun key hkey henum => ?_, fun value => ?_, ?_, fun type htype => ?_,
    fun name hname => ?_, ?_, fun name hname => ?_, ?_⟩
  · rw [hread key henum, hsame key hkey]
  · have henum : enumOk result value ↔ enumOk schema value :=
      enumOk_congr (by rw [enumValues?, enumValues?, hsame _ (by decide)])
    cases constant with
    | none => simp [foldConst?, henum, constOk, hconst]
    | some constValue => simp [foldConst?, enumOk_foldConst, henum, constOk, hconst]
  · rw [hread _ (by decide)]
    rcases hitem : Json.property? schema (js "const") with _ | item
    · exact (himage _).1 hitem
    · exact ((himage _).2 item hitem).2.of_const
  · rw [hread _ (by decide), hsame _ (by decide)] at htype
    exact ((himage _).2 type htype).2.of_type
  · have hnone : Json.property? schema (js name) = none := by
      rcases hitem : Json.property? schema (js name) with _ | item
      · rfl
      · obtain ⟨hrejected, hallOf⟩ := ((himage _).2 item hitem).1
        simp only [List.mem_cons, List.not_mem_nil, or_false] at hname
        rcases hname with rfl | rfl | rfl | rfl
        · exact absurd rfl hallOf
        · rw [hanyOf] at hitem
          cases hitem
        · rw [honeOf] at hitem
          cases hitem
        · exact absurd (by decide) hrejected
    refine ⟨hnone, ?_⟩
    have hne : js name ≠ js "enum" := by
      simp only [List.mem_cons, List.not_mem_nil, or_false] at hname
      rcases hname with rfl | rfl | rfl | rfl <;> decide
    rw [hread _ hne, (himage _).1 hnone]
  · rw [hread _ (by decide)]
    rcases hitem : Json.property? schema (js "required") with _ | item
    · exact .inl ((himage _).1 hitem)
    · rcases ((himage _).2 item hitem).2.of_required with hvalue | ⟨rfl, hvalue⟩
      · exact .inl hvalue
      · exact .inr ⟨rfl, hvalue⟩
  · have hne : js name ≠ js "enum" := by
      rcases List.mem_pair.mp hname with rfl | rfl <;> decide
    rw [hread _ hne]
    rcases hitem : Json.property? schema (js name) with _ | item
    · rw [(himage _).1 hitem]
      exact .none
    · rcases ((himage _).2 item hitem).2.of_schema hname with ⟨b, rfl, hvalue⟩ | ⟨item', hvalue, h⟩
      · rw [hvalue]
        exact .some (.bool b)
      · rw [hvalue]
        exact .some (hsub.subschema (hdistinct _ (mem_of_property? hitem)) h)
  · rw [hread _ (by decide)]
    rcases hitem : Json.property? schema (js "properties") with _ | item
    · rw [(himage _).1 hitem]
      exact .none
    · obtain ⟨properties, sanitized, rfl, hvalue, h⟩ := ((himage _).2 item hitem).2.of_properties
      rw [hvalue]
      have hproperties := (Json.distinctKeys_object.mp (hdistinct _ (mem_of_property? hitem))).2
      refine .some (.mk properties sanitized (related_of_forall₂ ?_))
      refine List.Forall₂.imp ?_ ((List.forall₂_and_left properties sanitized).mpr ⟨hproperties, h⟩)
      rintro e e' ⟨hkeys, hname, he⟩
      exact ⟨hname, hsub.subschema hkeys he⟩

end StonePlus.Kiro
