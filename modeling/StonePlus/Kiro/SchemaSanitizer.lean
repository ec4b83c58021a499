import StonePlus.Js.Object
import StonePlus.Kiro.Schema

/-!
# StonePlus.Kiro.SchemaSanitizer

`sanitizeKiroSchema` of `gateway/kiro-claude-request.ts`: the tool schemas that are forwarded.

A schema is refused, or rewritten into one without unions and `const`.  A schema object is its
entry list; as `Object.entries` lists it, each key occurs once.
-/

namespace StonePlus.Kiro

/-- The codes a schema is refused with. -/
inductive SchemaErrorCode
  | invalidToolDefinition | invalidContent
  deriving DecidableEq, Repr

/-- The arguments of `conversionError`. -/
structure SchemaConversionError where
  code : SchemaErrorCode
  path : JsString
  reason : JsString
  deriving DecidableEq

abbrev Sanitizing (α : Type) := Except SchemaConversionError α

/-- `MAX_KIRO_SCHEMA_DEPTH`. -/
def maxKiroSchemaDepth : Nat := 64

/-- `REJECTED_KIRO_SCHEMA_KEYWORDS`. -/
def rejectedKiroSchemaKeywords : List JsString :=
  ["$schema", "$defs", "$ref", "propertyNames", "patternProperties", "format", "if", "then",
    "else", "not", "dependentRequired", "dependentSchemas", "prefixItems",
    "unevaluatedProperties", "unevaluatedItems", "contentMediaType", "contentEncoding",
    "contains", "minContains", "maxContains"].map js

/-- `SUPPORTED_KIRO_SCHEMA_KEYWORDS`. -/
def supportedKiroSchemaKeywords : List JsString :=
  ["type", "title", "description", "default", "examples", "deprecated", "readOnly", "writeOnly",
    "enum", "const", "properties", "required", "additionalProperties", "minProperties",
    "maxProperties", "items", "minItems", "maxItems", "uniqueItems", "minLength", "maxLength",
    "pattern", "minimum", "maximum", "exclusiveMinimum", "exclusiveMaximum", "multipleOf",
    "anyOf", "oneOf", "allOf"].map js

/-- The keywords that may stand beside a union. -/
def annotationKeywords : List JsString :=
  ["title", "description", "default", "examples", "deprecated", "readOnly", "writeOnly"].map js

def definitionError {α : Type} (path reason : JsString) : Sanitizing α :=
  .error ⟨.invalidToolDefinition, path, reason⟩

def expectObject (value : Json) (path : JsString) : Sanitizing (List (JsString × Json)) :=
  match value with
  | .object entries => .ok entries
  | _ => definitionError path (js "an object is required")

mutual

/-- `cloneJsonValue`; a value of this type has no cycle. -/
def cloneJsonValue : Json → JsString → Sanitizing Json
  | .null, _ => .ok .null
  | .bool b, _ => .ok (.bool b)
  | .string s, _ => .ok (.string s)
  | .number n, path =>
    if n.isFinite then .ok (.number n)
    else .error ⟨.invalidContent, path, js "JSON numbers must be finite"⟩
  | .array items, path => do return .array (← cloneItems path 0 items)
  | .object entries, path => do return .object (← cloneEntries path entries)

/-- The items from `index` on. -/
def cloneItems (path : JsString) (index : Nat) : List Json → Sanitizing (List Json)
  | [] => .ok []
  | v :: vs => do
    let v ← cloneJsonValue v (path ++ js "[" ++ natToString index ++ js "]")
    return v :: (← cloneItems path (index + 1) vs)

def cloneEntries (path : JsString) : List (JsString × Json) → Sanitizing (List (JsString × Json))
  | [] => .ok []
  | (k, v) :: es => do
    let v ← cloneJsonValue v (path ++ js "." ++ k)
    return (k, v) :: (← cloneEntries path es)

end

/-- `isJsonSchemaType`. -/
def isJsonSchemaType (value : Json) : Bool :=
  value ∈ ["null", "boolean", "object", "array", "number", "integer", "string"].map
    fun name => Json.string (js name)

/-- `deduplicateJsonValues`, from the values seen so far. -/
def deduplicateFrom (seen : List JsString) : List Json → List Json
  | [] => []
  | v :: vs =>
    if canonicalJson v ∈ seen then deduplicateFrom seen vs
    else v :: deduplicateFrom (canonicalJson v :: seen) vs

def deduplicateJsonValues (values : List Json) : List Json := deduplicateFrom [] values

/-- The values of an `enum` keyword. -/
def enumValues? (schema : List (JsString × Json)) : Option (List Json) :=
  match Json.property? schema (js "enum") with
  | some (.array values) => some values
  | _ => none

/-- A branch with a type and an enumeration at most. -/
def isEnumBranch (branch : List (JsString × Json)) : Bool :=
  (enumValues? branch).isSome && branch.all fun e => e.1 == js "type" || e.1 == js "enum"

/-- The types that the branches name, each once. -/
def branchTypes (branches : List (List (JsString × Json))) : List JsString :=
  (branches.filterMap fun branch => match Json.property? branch (js "type") with
    | some (.string type) => some type
    | _ => none).dedup

/-- `collapseKiroUnion`, for the sanitizer of one branch. -/
def collapseKiroUnion
    (sanitize : List (JsString × Json) → JsString → Sanitizing (List (JsString × Json)))
    (value : Json) (path : JsString) (oneOf : Bool) : Sanitizing (List (JsString × Json)) :=
  match value with
  | .array (first :: rest) => do
    let branches ← (first :: rest).zipIdx.mapM fun (item, index) => do
      let branchPath := path ++ js "[" ++ natToString index ++ js "]"
      sanitize (← expectObject item branchPath) branchPath
    if branches.all isEnumBranch then
      let types := branchTypes branches
      let values := branches.flatMap fun branch => (enumValues? branch).getD []
      if 1 < types.length then
        definitionError path (js "schema union mixes incompatible value types")
      else if oneOf && hasDuplicateJsonValues values then
        definitionError path (js "oneOf enum branches overlap")
      else
        .ok (types.map (fun type => (js "type", .string type)) ++
          [(js "enum", .array (deduplicateJsonValues values))])
    else definitionError path (js "Kiro Claude cannot safely represent this schema union")
  | _ => definitionError path (js "schema union must contain at least one branch")

/-- Write a collapsed union into the result. -/
def assignCollapsed (keywordPath : JsString) (result : List (JsString × Json)) :
    List (JsString × Json) → Sanitizing (List (JsString × Json))
  | [] => .ok result
  | (key, value) :: rest =>
    if (Json.property? result key).isSome then
      definitionError keywordPath (js "schema union conflicts with sibling keyword " ++ key)
    else assignCollapsed keywordPath (Json.setProperty key value result) rest

def isUnionKeyword (key : JsString) : Bool := key == js "anyOf" || key == js "oneOf"

def isCountKeyword (key : JsString) : Bool :=
  key ∈ ["minLength", "maxLength", "minItems", "maxItems", "minProperties", "maxProperties"].map js

def isBoundKeyword (key : JsString) : Bool :=
  key ∈ ["minimum", "maximum", "exclusiveMinimum", "exclusiveMaximum", "multipleOf"].map js

def isFlagKeyword (key : JsString) : Bool :=
  key ∈ ["uniqueItems", "deprecated", "readOnly", "writeOnly"].map js

/-- A number that may stand under a keyword that bounds numbers. -/
def isBound (key : JsString) : Json → Bool
  | .number n => n.isFinite && !(key == js "multipleOf" && n ≤ JsNumber.ofInt 0)
  | _ => false

/-- The value of a keyword whose schema-free value is checked and kept. -/
def keepKeyword (regExps : RegExps) (key : JsString) (item : Json) (keywordPath : JsString) :
    Sanitizing Json :=
  if key = js "type" then
    if isJsonSchemaType item then .ok item
    else definitionError keywordPath (js "type must be one JSON Schema primitive type string")
  else if key = js "enum" then
    match item with
    | .array values => do return .array (← cloneItems keywordPath 0 values)
    | _ => definitionError keywordPath (js "enum must be an array")
  else if key = js "pattern" then
    match item with
    | .string pattern =>
      if (regExps pattern).isSome then .ok item
      else definitionError keywordPath (js "pattern must be a valid regular expression")
    | _ => definitionError keywordPath (js "pattern must be a string")
  else if isCountKeyword key then
    if (nonNegativeInteger? (some item)).isSome then .ok item
    else definitionError keywordPath (key ++ js " must be a non-negative safe integer")
  else if isBoundKeyword key then
    if isBound key item then .ok item
    else definitionError keywordPath (key ++ js " must be " ++
      js (if key = js "multipleOf" then "a positive" else "a finite") ++ js " number")
  else if isFlagKeyword key then
    match item with
    | .bool _ => .ok item
    | _ => definitionError keywordPath (key ++ js " must be a boolean")
  else if key = js "title" ∨ key = js "description" then
    match item with
    | .string _ => .ok item
    | _ => definitionError keywordPath (key ++ js " must be a string")
  else cloneJsonValue item keywordPath

/-- Names under `required`: strings, none of them empty. -/
def requiredNames? (items : List Json) : Option (List JsString) :=
  items.mapM fun item => match item with
    | .string name => if name = [] then none else some name
    | _ => none

/-- One turn of the loop over the keywords. -/
def sanitizeEntry (regExps : RegExps)
    (sanitize : List (JsString × Json) → JsString → Sanitizing (List (JsString × Json)))
    (path : JsString) (result : List (JsString × Json)) (entry : JsString × Json) :
    Sanitizing (List (JsString × Json)) :=
  let (key, item) := entry
  let keywordPath := path ++ js "." ++ key
  if key ∈ rejectedKiroSchemaKeywords then
    definitionError keywordPath (js "Kiro Claude cannot represent schema keyword " ++ key ++
      js " without changing validation semantics")
  else if key ∉ supportedKiroSchemaKeywords then
    definitionError keywordPath (js "unsupported schema keyword " ++ key ++
      js " cannot be forwarded safely")
  else if key = js "const" then .ok result
  else if key = js "allOf" then
    definitionError keywordPath (js "Kiro Claude cannot safely flatten allOf tool schemas")
  else if isUnionKeyword key then do
    assignCollapsed keywordPath result
      (← collapseKiroUnion sanitize item keywordPath (key == js "oneOf"))
  else if key = js "properties" then do
    let properties ← expectObject item keywordPath
    let sanitized ← properties.mapM fun (name, schema) => do
      let propertyPath := keywordPath ++ js "." ++ name
      return (name, Json.object (← sanitize (← expectObject schema propertyPath) propertyPath))
    return Json.setProperty key (.object sanitized) result
  else if key = js "additionalProperties" ∨ key = js "items" then
    match item with
    | .bool _ => .ok (Json.setProperty key item result)
    | _ => do
      let sanitized ← sanitize (← expectObject item keywordPath) keywordPath
      return Json.setProperty key (.object sanitized) result
  else if key = js "required" then
    match item with
    | .array items =>
      match requiredNames? items with
      | some names =>
        if names.dedup.length ≠ names.length then
          definitionError keywordPath (js "required entries must be unique")
        else .ok (if items = [] then result else Json.setProperty key item result)
      | none => definitionError keywordPath (js "required must be an array of non-empty strings")
    | _ => definitionError keywordPath (js "required must be an array of non-empty strings")
  else do
    return Json.setProperty key (← keepKeyword regExps key item keywordPath) result

/-- The `enum` that stands for an `enum` and a `const`. -/
def foldConst (result : List (JsString × Json)) (constValue : Json) : List (JsString × Json) :=
  Json.setProperty (js "enum")
    (.array (match enumValues? result with
      | none => [constValue]
      | some values =>
        if values.any fun entry => jsonValuesEqual entry constValue then [constValue] else []))
    result

/-- The checks on a schema's union keywords. -/
def checkUnions (value : List (JsString × Json)) (path : JsString) : Sanitizing Unit :=
  match (["anyOf", "oneOf"].map js).filter fun key => (Json.property? value key).isSome with
  | [] => .ok ()
  | [union] =>
    if value.any fun e => e.1 != union && e.1 ∉ annotationKeywords then
      definitionError (path ++ js "." ++ union)
        (js "Kiro Claude cannot safely combine a schema union with sibling validation keywords")
    else .ok ()
  | _ => definitionError path (js "Kiro Claude cannot safely combine multiple schema unions")

/-- `sanitizeKiroSchema`.  `levels` counts down from one more than the depth limit as the
source's `depth` counts up from zero. -/
def sanitizeKiroSchema (regExps : RegExps) :
    Nat → List (JsString × Json) → JsString → Sanitizing (List (JsString × Json))
  | 0, _, path => definitionError path
    (js "tool schema nesting exceeds " ++ natToString maxKiroSchemaDepth ++ js " levels")
  | levels + 1, value, path => do
    let constValue ← match Json.property? value (js "const") with
      | some value => some <$> cloneJsonValue value (path ++ js ".const")
      | none => .ok none
    checkUnions value path
    let result ← value.foldlM (sanitizeEntry regExps (sanitizeKiroSchema regExps levels) path) []
    return match constValue with
      | some constValue => foldConst result constValue
      | none => result

end StonePlus.Kiro

/-!
## Meaning

What a schema says about a value, keyword by keyword.

`validateSchemaValue` reports the first keyword that fails; here its verdict is the conjunction
of what the keywords ask for.  `meetsUnionTypes` is the condition under which a union may be
written as one enumeration.
-/

namespace StonePlus.Kiro

/-! ## Equal values -/

theorem jsonValuesEqual_iff : jsonValuesEqual a b = true ↔ canonicalJson a = canonicalJson b := by
  simp [jsonValuesEqual]

/-- Whether a value is in an enumeration. -/
def listed (values : List Json) (value : Json) : Bool :=
  values.any fun candidate => jsonValuesEqual candidate value

theorem listed_iff :
    listed values value = true ↔ canonicalJson value ∈ values.map canonicalJson := by
  simp [listed, jsonValuesEqual, List.mem_map]

theorem mem_deduplicateFrom {seen : List JsString} {values : List Json} {key : JsString} :
    key ∈ (deduplicateFrom seen values).map canonicalJson ∨ key ∈ seen ↔
      key ∈ values.map canonicalJson ∨ key ∈ seen := by
  induction values generalizing seen with
  | nil => simp [deduplicateFrom]
  | cons v vs ih =>
      unfold deduplicateFrom
      split
      · next hseen =>
        rw [ih, List.map_cons, List.mem_cons]
        constructor
        · rintro (h | h)
          · exact .inl (.inr h)
          · exact .inr h
        · rintro ((rfl | h) | h)
          · exact .inr hseen
          · exact .inl h
          · exact .inr h
      · have hrest := @ih (canonicalJson v :: seen)
        rw [List.mem_cons] at hrest
        rw [List.map_cons, List.map_cons, List.mem_cons, List.mem_cons, or_assoc, or_assoc]
        constructor
        · rintro (h | h | h)
          · exact .inl h
          · rcases hrest.mp (.inl h) with h | h | h
            · exact .inr (.inl h)
            · exact .inl h
            · exact .inr (.inr h)
          · exact .inr (.inr h)
        · rintro (h | h | h)
          · exact .inl h
          · rcases hrest.mpr (.inl h) with h | h | h
            · exact .inr (.inl h)
            · exact .inl h
            · exact .inr (.inr h)
          · exact .inr (.inr h)

/-- Dropping repeated values changes no enumeration. -/
theorem listed_deduplicateJsonValues (values : List Json) (value : Json) :
    listed (deduplicateJsonValues values) value = listed values value := by
  have h := @mem_deduplicateFrom [] values (canonicalJson value)
  simp only [List.not_mem_nil, or_false] at h
  rw [Bool.eq_iff_iff, listed_iff, listed_iff]
  exact h

theorem hasDuplicateFrom_eq_false : hasDuplicateFrom seen values = false ↔
      (values.map canonicalJson).Nodup ∧ ∀ key ∈ values.map canonicalJson, key ∉ seen := by
  induction values generalizing seen with
  | nil => simp [hasDuplicateFrom]
  | cons v vs ih =>
      simp only [hasDuplicateFrom, Bool.or_eq_false_iff, ih, List.map_cons, List.nodup_cons,
        List.mem_cons, forall_eq_or_imp, not_or, decide_eq_false_iff_not]
      constructor
      · rintro ⟨hv, hvs, hall⟩
        exact ⟨⟨fun h => (hall _ h).1 rfl, hvs⟩, hv, fun key h => (hall key h).2⟩
      · rintro ⟨⟨hnot, hvs⟩, hv, hall⟩
        exact ⟨hv, hvs, fun key h => ⟨fun heq => hnot (heq ▸ h), hall key h⟩⟩

theorem nodup_of_no_duplicates (h : hasDuplicateJsonValues values = false) :
    (values.map canonicalJson).Nodup := (hasDuplicateFrom_eq_false.mp h).1

/-! ## Keywords -/

theorem issueIf_eq_none : issueIf failed path reason = none ↔ failed = false := by
  cases failed <;> simp [issueIf]

/-- What the keywords for the value's own kind report. -/
def kindIssue (regExps : RegExps) (validate : Json → Json → JsString → Option SchemaValidationIssue)
    (keyword : String → Option Json) (value : Json) (path : JsString) :
    Option SchemaValidationIssue :=
  match value with
  | .string s => validateString regExps s keyword path
  | .number n => validateNumber n keyword path
  | .array items =>
    validateArray items keyword path <|>
    (keyword "items").bind fun schema => items.zipIdx.findSome? fun (item, index) =>
      validate item schema (path ++ js "[" ++ natToString index ++ js "]")
  | .object entries =>
    let properties := match keyword "properties" with
      | some (.object properties) => properties
      | _ => []
    validateObject entries keyword path <|>
    entries.findSome? fun (name, propertyValue) =>
      let propertyPath := schemaPropertyPath path name
      match Json.property? properties name with
      | some propertySchema => validate propertyValue propertySchema propertyPath
      | none =>
        match keyword "additionalProperties" with
        | some (.bool false) => some ⟨propertyPath, js "additional property is not allowed"⟩
        | some (.bool true) => validate propertyValue (.bool true) propertyPath
        | some (.object schema) => validate propertyValue (.object schema) propertyPath
        | _ => none
  | _ => none

variable {regExps : RegExps}

/-- A value has a type if the `type` keyword is absent or names one of its types. -/
def typeOk (schema : List (JsString × Json)) (value : Json) : Prop :=
  ∀ type, Json.property? schema (js "type") = some type → matchesSchemaType value type = true

/-- A value is in the enumeration, where there is one. -/
def enumOk (schema : List (JsString × Json)) (value : Json) : Prop :=
  ∀ values, enumValues? schema = some values → listed values value = true

def constOk (schema : List (JsString × Json)) (value : Json) : Prop :=
  ∀ constant, Json.property? schema (js "const") = some constant →
    jsonValuesEqual constant value = true

/-- The verdict on a value is the conjunction of what the keywords ask for. -/
theorem validate_eq_none :
    validateSchemaValue regExps (levels + 1) value (.object schema) path = none ↔
      typeOk schema value ∧ enumOk schema value ∧ constOk schema value ∧
      validateSchemaBranches (fun branch => validateSchemaValue regExps levels value branch path)
        (Json.property? schema (js "allOf")) path .allOf = none ∧
      validateSchemaBranches (fun branch => validateSchemaValue regExps levels value branch path)
        (Json.property? schema (js "anyOf")) path .anyOf = none ∧
      validateSchemaBranches (fun branch => validateSchemaValue regExps levels value branch path)
        (Json.property? schema (js "oneOf")) path .oneOf = none ∧
      (∀ forbidden, Json.property? schema (js "not") = some forbidden →
        validateSchemaValue regExps levels value forbidden path ≠ none) ∧
      kindIssue regExps (validateSchemaValue regExps levels)
        (fun name => Json.property? schema (js name)) value path = none := by
  have hsplit : validateSchemaValue regExps (levels + 1) value (.object schema) path =
      ((Json.property? schema (js "type")).bind (fun type =>
        issueIf (!matchesSchemaType value type) path
          (js "expected type " ++ schemaTypeLabel type)) <|>
      (match Json.property? schema (js "enum") with
        | some (.array candidates) =>
          issueIf (!candidates.any fun candidate => jsonValuesEqual candidate value) path
            (js "value is not in enum")
        | _ => none) <|>
      (Json.property? schema (js "const")).bind (fun constant =>
        issueIf (!jsonValuesEqual constant value) path (js "value does not equal const")) <|>
      validateSchemaBranches (fun branch => validateSchemaValue regExps levels value branch path)
        (Json.property? schema (js "allOf")) path .allOf <|>
      validateSchemaBranches (fun branch => validateSchemaValue regExps levels value branch path)
        (Json.property? schema (js "anyOf")) path .anyOf <|>
      validateSchemaBranches (fun branch => validateSchemaValue regExps levels value branch path)
        (Json.property? schema (js "oneOf")) path .oneOf <|>
      (Json.property? schema (js "not")).bind (fun forbidden =>
        issueIf (validateSchemaValue regExps levels value forbidden path).isNone path
          (js "value matches forbidden not schema")) <|>
      kindIssue regExps (validateSchemaValue regExps levels)
        (fun name => Json.property? schema (js name)) value path) := by
    rfl
  have htype : typeOk schema value ↔ (Json.property? schema (js "type")).bind (fun type =>
      issueIf (!matchesSchemaType value type) path
        (js "expected type " ++ schemaTypeLabel type)) = none := by
    simp [typeOk, Option.bind_eq_none_iff, issueIf_eq_none]
  have hconst : constOk schema value ↔ (Json.property? schema (js "const")).bind (fun constant =>
      issueIf (!jsonValuesEqual constant value) path (js "value does not equal const")) = none := by
    simp [constOk, Option.bind_eq_none_iff, issueIf_eq_none]
  have hnot : (∀ forbidden, Json.property? schema (js "not") = some forbidden →
      validateSchemaValue regExps levels value forbidden path ≠ none) ↔
      (Json.property? schema (js "not")).bind (fun forbidden =>
        issueIf (validateSchemaValue regExps levels value forbidden path).isNone path
          (js "value matches forbidden not schema")) = none := by
    simp [Option.bind_eq_none_iff, issueIf_eq_none, Option.isSome_iff_ne_none]
  have henum : enumOk schema value ↔ (match Json.property? schema (js "enum") with
      | some (.array candidates) =>
        issueIf (!candidates.any fun candidate => jsonValuesEqual candidate value) path
          (js "value is not in enum")
      | _ => none) = none := by
    unfold enumOk enumValues? listed
    rcases Json.property? schema (js "enum") with _ | (_ | _ | _ | _ | values | _) <;>
      simp [issueIf_eq_none]
  rw [hsplit, htype, henum, hconst, hnot]
  simp only [Option.orElse_eq_orElse, Option.orElse_eq_or, Option.or_eq_none_iff]

/-! ## Types named under unions -/

/-- The branches of a union keyword. -/
def unionBranches (schema : List (JsString × Json)) : List Json :=
  (["anyOf", "oneOf"].map js).flatMap fun key => match Json.property? schema key with
    | some (.array branches) => branches
    | _ => []

/-- The types that a schema names, or its branches where it is a union. -/
def namedTypes : Nat → Json → List Json
  | levels + 1, .object schema =>
    (Json.property? schema (js "type")).toList ++
      (unionBranches schema).flatMap (namedTypes levels)
  | _, _ => []

/-- Every part of the value that the schema checks against a union has each type that a branch
of the union names. -/
def meetsUnionTypes : Nat → Json → Json → Bool
  | levels + 1, value, .object schema =>
    ((unionBranches schema).flatMap (namedTypes levels)).all (matchesSchemaType value) &&
    match value with
    | .array items =>
      match Json.property? schema (js "items") with
      | some itemSchema => items.all fun item => meetsUnionTypes levels item itemSchema
      | none => true
    | .object entries =>
      let properties := match Json.property? schema (js "properties") with
        | some (.object properties) => properties
        | _ => []
      entries.all fun (name, propertyValue) =>
        match Json.property? properties name with
        | some propertySchema => meetsUnionTypes levels propertyValue propertySchema
        | none =>
          match Json.property? schema (js "additionalProperties") with
          | some propertySchema => meetsUnionTypes levels propertyValue propertySchema
          | none => true
    | _ => true
  | _, _, _ => true

end StonePlus.Kiro
