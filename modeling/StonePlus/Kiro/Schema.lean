import StonePlus.Js.Json

/-!
# StonePlus.Kiro.Schema

The JSON Schema subset `gateway/kiro-event-stream.ts` checks tool inputs
against.

The regular expression engine is a parameter: `RegExps` says whether a
pattern compiles and, if so, which strings it matches.
-/

namespace StonePlus.Kiro

/-- `new RegExp(pattern, 'u')` and its `test`; `none` when the constructor throws. -/
abbrev RegExps := JsString → Option (JsString → Bool)

/-- `SchemaValidationIssue`. -/
structure SchemaValidationIssue where
  path : JsString
  reason : JsString
  deriving DecidableEq

/-- `MAX_SCHEMA_VALIDATION_DEPTH`. -/
def maxSchemaValidationDepth : Nat := 64

/-- An issue at `path` if the check fails. -/
def issueIf (failed : Bool) (path reason : JsString) : Option SchemaValidationIssue :=
  if failed then some ⟨path, reason⟩ else none

/-! ## Values -/

/-- Lexicographic order of code units, as `sort()` compares strings. -/
def codeUnitsLe : JsString → JsString → Bool
  | [], _ => true
  | _ :: _, [] => false
  | c :: s, d :: t => c < d || (c == d && codeUnitsLe s t)

mutual

def canonicalJson : Json → JsString
  | .array items => js "[" ++ Json.join (js ",") (canonicalItems items) ++ js "]"
  | .object entries =>
    let sorted := (canonicalEntries entries).mergeSort fun a b => codeUnitsLe a.1 b.1
    js "\x7b" ++ Json.join (js ",") (sorted.map Prod.snd) ++ js "\x7d"
  | .null => js "null"
  | .bool b => if b then js "true" else js "false"
  | .number n => Json.stringifyNumber n
  | .string s => Json.quote s

def canonicalItems : List Json → List JsString
  | [] => []
  | v :: vs => canonicalJson v :: canonicalItems vs

def canonicalEntries : List (JsString × Json) → List (JsString × JsString)
  | [] => []
  | (k, v) :: es => (k, Json.quote k ++ js ":" ++ canonicalJson v) :: canonicalEntries es

end

def jsonValuesEqual (left right : Json) : Bool := canonicalJson left == canonicalJson right

/-- `hasDuplicateJsonValues`, from the values seen so far. -/
def hasDuplicateFrom (seen : List JsString) : List Json → Bool
  | [] => false
  | v :: vs => canonicalJson v ∈ seen || hasDuplicateFrom (canonicalJson v :: seen) vs

def hasDuplicateJsonValues (values : List Json) : Bool := hasDuplicateFrom [] values

/-- Whether a value has the type one name of the `type` keyword stands for. -/
def hasTypeName (value typeName : Json) : Bool :=
  match typeName with
  | .string name =>
    if name = js "null" then value = .null
    else if name = js "boolean" then value matches .bool _
    else if name = js "object" then value.isJsonObject
    else if name = js "array" then value matches .array _
    else if name = js "number" then match value with
      | .number n => n.isFinite
      | _ => false
    else if name = js "integer" then match value with
      | .number n => n.isInteger
      | _ => false
    else if name = js "string" then value matches .string _
    else false
  | _ => false

def matchesSchemaType (value rawType : Json) : Bool :=
  match rawType with
  | .array types => types.any (hasTypeName value)
  | type => hasTypeName value type

def schemaTypeLabel (rawType : Json) : JsString :=
  match rawType with
  | .array types => Json.join (js "|") (Json.elementStrings types)
  | type => type.toJsString

/-- The keyword's value if `isNonNegativeInteger` holds of it. -/
def nonNegativeInteger? (keyword : Option Json) : Option Nat :=
  match keyword with
  | some (.number n) => if n.isSafeInteger then n.toNat? else none
  | _ => none

/-- The keyword's value if it is a number. -/
def number? (keyword : Option Json) : Option JsNumber :=
  match keyword with
  | some (.number n) => some n
  | _ => none

/-- `Number.EPSILON`. -/
def epsilon : JsNumber := JsNumber.ofInt 1 / JsNumber.ofInt (2 ^ 52)

/-- `Math.max(1, x)`. -/
def maxOne (x : JsNumber) : JsNumber :=
  if x.isNaN then x else if JsNumber.ofInt 1 < x then x else JsNumber.ofInt 1

def isMultipleOf (value divisor : JsNumber) : Bool :=
  let quotient : JsNumber := value / divisor
  JsNumber.abs (quotient - JsNumber.round quotient) ≤
    epsilon * maxOne (JsNumber.abs quotient) * JsNumber.ofInt 8

/-- The first or a later code unit of an identifier. -/
def isIdentifierPart (first : Bool) (c : UInt16) : Bool :=
  (0x41 ≤ c && c ≤ 0x5A) || (0x61 ≤ c && c ≤ 0x7A) || c == 0x5F || c == 0x24 ||
    (!first && Json.isDigit c)

def schemaPropertyPath (path name : JsString) : JsString :=
  match name with
  | c :: rest =>
    if isIdentifierPart true c && rest.all (isIdentifierPart false) then path ++ js "." ++ name
    else path ++ js "[" ++ Json.quote name ++ js "]"
  | [] => path ++ js "[" ++ Json.quote name ++ js "]"

/-! ## Keywords for one type -/

/-- The keywords for strings. -/
def validateString (regExps : RegExps) (s : JsString) (keyword : String → Option Json)
    (path : JsString) : Option SchemaValidationIssue :=
  let length := s.codePoints.length
  (nonNegativeInteger? (keyword "minLength")).bind (fun bound =>
    issueIf (length < bound) path (js "string length is below minLength " ++ natToString bound)) <|>
  (nonNegativeInteger? (keyword "maxLength")).bind (fun bound =>
    issueIf (bound < length) path (js "string length exceeds maxLength " ++ natToString bound)) <|>
  match keyword "pattern" with
  | some (.string pattern) =>
    match regExps pattern with
    | none => some ⟨path, js "declared schema pattern is invalid"⟩
    | some test => issueIf (!test s) path (js "string does not match pattern " ++ pattern)
  | _ => none

/-- The keywords for numbers. -/
def validateNumber (n : JsNumber) (keyword : String → Option Json) (path : JsString) :
    Option SchemaValidationIssue :=
  (number? (keyword "minimum")).bind (fun bound =>
    issueIf (n < bound) path (js "number is below minimum " ++ bound.toJsString)) <|>
  (number? (keyword "maximum")).bind (fun bound =>
    issueIf (bound < n) path (js "number exceeds maximum " ++ bound.toJsString)) <|>
  (number? (keyword "exclusiveMinimum")).bind (fun bound =>
    issueIf (n ≤ bound) path (js "number is not above exclusiveMinimum " ++ bound.toJsString)) <|>
  (number? (keyword "exclusiveMaximum")).bind (fun bound =>
    issueIf (bound ≤ n) path (js "number is not below exclusiveMaximum " ++ bound.toJsString)) <|>
  (number? (keyword "multipleOf")).bind fun divisor =>
    issueIf (decide (JsNumber.ofInt 0 < divisor) && !isMultipleOf n divisor) path
      (js "number is not a multiple of " ++ divisor.toJsString)

/-- The keywords for arrays, but for `items`. -/
def validateArray (items : List Json) (keyword : String → Option Json) (path : JsString) :
    Option SchemaValidationIssue :=
  (nonNegativeInteger? (keyword "minItems")).bind (fun bound =>
    issueIf (items.length < bound) path
      (js "array length is below minItems " ++ natToString bound)) <|>
  (nonNegativeInteger? (keyword "maxItems")).bind (fun bound =>
    issueIf (bound < items.length) path
      (js "array length exceeds maxItems " ++ natToString bound)) <|>
  issueIf (keyword "uniqueItems" == some (.bool true) && hasDuplicateJsonValues items) path
    (js "array items are not unique")

/-- The keywords for objects, but for those with a schema per property. -/
def validateObject (entries : List (JsString × Json)) (keyword : String → Option Json)
    (path : JsString) : Option SchemaValidationIssue :=
  (nonNegativeInteger? (keyword "minProperties")).bind (fun bound =>
    issueIf (entries.length < bound) path
      (js "object has fewer than minProperties " ++ natToString bound)) <|>
  (nonNegativeInteger? (keyword "maxProperties")).bind (fun bound =>
    issueIf (bound < entries.length) path
      (js "object has more than maxProperties " ++ natToString bound)) <|>
  match keyword "required" with
  | some (.array names) => names.findSome? fun name =>
    match name with
    | .string name =>
      issueIf (Json.property? entries name).isNone (schemaPropertyPath path name)
        (js "required property is missing")
    | _ => none
  | _ => none

/-! ## Schemas -/

/-- The keywords that combine schemas. -/
inductive BranchKeyword
  | allOf | anyOf | oneOf

/-- The keyword as it is written. -/
def BranchKeyword.name : BranchKeyword → String
  | .allOf => "allOf"
  | .anyOf => "anyOf"
  | .oneOf => "oneOf"

/-- `validateSchemaBranches`, for the validator of one branch. -/
def validateSchemaBranches (validate : Json → Option SchemaValidationIssue)
    (rawBranches : Option Json) (path : JsString) (keyword : BranchKeyword) :
    Option SchemaValidationIssue :=
  match rawBranches with
  | none => none
  | some (.array (first :: rest)) =>
    let branches := first :: rest
    let matching := (branches.filter fun branch => (validate branch).isNone).length
    match keyword with
    | .allOf => issueIf (matching ≠ branches.length) path
        (js "value does not satisfy every allOf branch")
    | .anyOf => issueIf (matching = 0) path (js "value does not satisfy any anyOf branch")
    | .oneOf => issueIf (matching ≠ 1) path (js "value does not satisfy exactly one oneOf branch")
  | some _ =>
    some ⟨path, js "declared schema " ++ js keyword.name ++ js " must be a non-empty array"⟩

/-- `validateSchemaValue`.  `levels` counts down from one more than the depth
limit as the source's `depth` counts up from zero. -/
def validateSchemaValue (regExps : RegExps) : Nat → Json → Json → JsString →
    Option SchemaValidationIssue
  | 0, _, _, path =>
    some ⟨path, js "schema validation exceeded " ++ natToString maxSchemaValidationDepth ++
      js " levels"⟩
  | levels + 1, value, rawSchema, path =>
    match rawSchema with
    | .bool true => none
    | .bool false => some ⟨path, js "the schema rejects every value"⟩
    | .object schema =>
      let keyword (name : String) := Json.property? schema (js name)
      let validate := validateSchemaValue regExps levels
      (keyword "type").bind (fun type => issueIf (!matchesSchemaType value type) path
        (js "expected type " ++ schemaTypeLabel type)) <|>
      (match keyword "enum" with
        | some (.array candidates) =>
          issueIf (!candidates.any fun candidate => jsonValuesEqual candidate value) path
            (js "value is not in enum")
        | _ => none) <|>
      (keyword "const").bind (fun constant => issueIf (!jsonValuesEqual constant value) path
        (js "value does not equal const")) <|>
      validateSchemaBranches (fun branch => validate value branch path) (keyword "allOf") path
        .allOf <|>
      validateSchemaBranches (fun branch => validate value branch path) (keyword "anyOf") path
        .anyOf <|>
      validateSchemaBranches (fun branch => validate value branch path) (keyword "oneOf") path
        .oneOf <|>
      (keyword "not").bind (fun forbidden => issueIf (validate value forbidden path).isNone path
        (js "value matches forbidden not schema")) <|>
      match value with
      | .string s => validateString regExps s keyword path
      | .number n => validateNumber n keyword path
      | .array items =>
        validateArray items keyword path <|>
        (keyword "items").bind fun schema => items.zipIdx.findSome? fun (item, index) =>
          validate item schema (path ++ js "[" ++ natToString index ++ js "]")
      | .object entries =>
        let properties := match keyword "properties" with
          | some (.object properties) => properties
          | _ => []
        validateObject entries keyword path <|>
        entries.findSome? fun (name, propertyValue) =>
          let propertyPath := schemaPropertyPath path name
          match Json.property? properties name with
          | some propertySchema => validate propertyValue propertySchema propertyPath
          | none =>
            match keyword "additionalProperties" with
            | some (.bool false) => some ⟨propertyPath, js "additional property is not allowed"⟩
            | some (.bool true) => validate propertyValue (.bool true) propertyPath
            | some (.object schema) => validate propertyValue (.object schema) propertyPath
            | _ => none
      | _ => none
    | _ => some ⟨path, js "declared schema node is not an object"⟩

example : validateSchemaValue (fun _ => none) 65 (.object [(js "a", .number 0.3)])
    (.object [(js "properties", .object [(js "a", .object [(js "multipleOf", .number 0.1)])]),
      (js "required", .array [.string (js "a"), .string (js "b c")])]) (js "$") =
    some ⟨js "$[\"b c\"]", js "required property is missing"⟩ := by decide +kernel

end StonePlus.Kiro
