import StonePlus.Kiro.SchemaUnion

/-!
# StonePlus.Kiro.SchemaVerdict

The verdict of a sanitized schema beside the verdict of the schema it stands for.

The induction is on the depth: a schema without unions is faithful keyword by keyword, and a
union is faithful when its branches are.
-/

namespace StonePlus.Kiro

open Lib

variable {regExps : RegExps} {levels : Nat} {path : JsString}
variable {schema result : List (JsString × Json)}

theorem isNone_of_related (h : Related R item item') (hnone : item' = none) : item = none := by
  cases h with
  | none => rfl
  | some => cases hnone

/-- A schema without unions names the type it has. -/
theorem PlainImage.faithful (h : PlainImage regExps levels schema result) :
    Faithful regExps (levels + 1) (.object schema) result := by
  have hkept : Json.property? result (js "type") = Json.property? schema (js "type") :=
    h.kept _ (by decide) (by decide)
  refine ⟨h.agrees, fun value => ?_, h.type, fun henum value _ => ?_⟩
  · simp [typeOk, namedTypes, h.unionBranches, hkept]
  · have hnone : ∀ name ∈ ["items", "properties", "additionalProperties"],
        Json.property? result (js name) = none := by
      intro name hname
      have hall : ∀ name ∈ ["items", "properties", "additionalProperties"],
          js name ≠ js "type" ∧ js name ≠ js "enum" := by decide
      exact typeEnum_of_isEnumBranch henum (hall name hname).1 (hall name hname).2
    have hschema : ∀ name ∈ ["items", "properties", "additionalProperties"],
        Json.property? schema (js name) = none := by
      intro name hname
      have hresult := hnone name hname
      simp only [List.mem_cons, List.not_mem_nil, or_false] at hname
      rcases hname with rfl | rfl | rfl
      · exact isNone_of_related (h.subschema "items" (by simp)) hresult
      · exact isNone_of_related h.properties hresult
      · exact isNone_of_related (h.subschema "additionalProperties" (by simp)) hresult
    rw [meetsUnionTypes_iff hschema, h.unionBranches]
    simp

/-- What the sanitizer has been through when it returns. -/
theorem sanitizeKiroSchema_cases
    (h : sanitizeKiroSchema regExps (levels + 1) schema path = .ok result) :
    checkUnions schema path = .ok () ∧ ∃ written,
      schema.foldlM (sanitizeEntry regExps (sanitizeKiroSchema regExps levels) path) [] =
        .ok written ∧
      result = foldConst? written (Json.property? schema (js "const")) := by
  unfold sanitizeKiroSchema at h
  dsimp only at h
  generalize Json.property? schema (js "const") = constant at h ⊢
  obtain _ | item := constant
  · obtain ⟨_, ⟨⟩, h⟩ := bind_eq_ok.mp h
    obtain ⟨⟨⟩, hcheck, h⟩ := bind_eq_ok.mp h
    obtain ⟨written, hwritten, h⟩ := bind_eq_ok.mp h
    cases h
    exact ⟨hcheck, written, hwritten, rfl⟩
  · obtain ⟨constValue, hconst, h⟩ := bind_eq_ok.mp h
    obtain ⟨⟨⟩, hcheck, h⟩ := bind_eq_ok.mp h
    obtain ⟨written, hwritten, h⟩ := bind_eq_ok.mp h
    cases h
    refine ⟨hcheck, written, hwritten, ?_⟩
    rcases hclone : cloneJsonValue item (path ++ js ".const") with _ | clone
    · rw [hclone] at hconst
      cases hconst
    · rw [hclone] at hconst
      cases hconst
      rw [cloneJsonValue_eq hclone]
      rfl

theorem isUnionKeyword_iff : isUnionKeyword key = true ↔ key = js "anyOf" ∨ key = js "oneOf" := by
  simp [isUnionKeyword]

theorem property?_isSome_of_mem (h : e ∈ entries) : (Json.property? entries e.1).isSome := by
  rw [Json.property?, Option.isSome_map, List.find?_isSome]
  exact ⟨e, h, by simp⟩

/-- A schema without unions is faithful when the sanitizer is one level below. -/
theorem faithful_of_plain (hsub : SanitizerAgrees regExps levels)
    (hkeys : Json.distinctKeys (.object schema) = true)
    (hanyOf : Json.property? schema (js "anyOf") = none)
    (honeOf : Json.property? schema (js "oneOf") = none)
    (h : sanitizeKiroSchema regExps (levels + 1) schema path = .ok result) :
    Faithful regExps (levels + 1) (.object schema) result := by
  obtain ⟨-, written, hwritten, rfl⟩ := sanitizeKiroSchema_cases h
  have hunion : ∀ e ∈ schema, isUnionKeyword e.1 = false := by
    intro e he
    have hsome := property?_isSome_of_mem he
    refine Bool.eq_false_iff.mpr fun hkey => ?_
    rcases isUnionKeyword_iff.mp hkey with hkey | hkey
    · rw [hkey, hanyOf] at hsome
      cases hsome
    · rw [hkey, honeOf] at hsome
      cases hsome
  have himage : Image (sanitizeKiroSchema regExps levels) schema written := fun key =>
    image_of_foldlM hunion (Json.distinctKeys_object.mp hkeys).1 (fun _ _ => rfl) hwritten key
  exact (plainImage hsub hkeys hanyOf honeOf himage).faithful

/-- A union is faithful when the sanitizer is for its branches. -/
theorem faithful_of_union {keyword : BranchKeyword} (hunion : keyword ≠ .allOf)
    (hsub : ∀ entries result path, Json.distinctKeys (.object entries) = true →
      sanitizeKiroSchema regExps levels entries path = .ok result →
      Faithful regExps levels (.object entries) result)
    (hkeys : Json.distinctKeys (.object schema) = true)
    (hsome : (Json.property? schema (js keyword.name)).isSome)
    (hother : ∀ e ∈ schema, e.1 = js keyword.name ∨ e.1 ∈ annotationKeywords)
    (h : sanitizeKiroSchema regExps (levels + 1) schema path = .ok result) :
    Faithful regExps (levels + 1) (.object schema) result := by
  obtain ⟨-, written, hwritten, hresult⟩ := sanitizeKiroSchema_cases h
  obtain ⟨items, branches, himage⟩ := unionImage_of_foldlM hunion
    (Json.distinctKeys_object.mp hkeys).1 hsome hother hwritten
  have hconst : Json.property? schema (js "const") = none := by
    have hne : ∀ keyword : BranchKeyword, js "const" ≠ js keyword.name := by
      intro keyword
      cases keyword <;> decide
    exact himage.others _ (hne keyword) (by decide)
  rw [hconst] at hresult
  change result = written at hresult
  subst hresult
  obtain ⟨collapsed, oneOf, -, hcollapses, -⟩ := himage.collapses
  have hitems : ∀ item ∈ items, Json.distinctKeys item = true := by
    have hunion := (Json.distinctKeys_object.mp hkeys).2 _ (mem_of_property? himage.union)
    exact Json.distinctItems_iff.mp hunion
  have hbranches : List.Forall₂ (fun item branch => Faithful regExps levels item branch) items
      branches := by
    refine List.Forall₂.imp ?_
      ((List.forall₂_and_left items branches).mpr ⟨hitems, hcollapses.sanitized⟩)
    rintro item branch ⟨hdistinct, entries, entries', path, rfl, heq, hbranch⟩
    cases heq
    exact hsub _ _ _ hdistinct hbranch
  cases levels with
  | zero =>
      -- At the last level no branch is sanitized.
      obtain ⟨item, rest, rfl⟩ := List.exists_cons_of_ne_nil hcollapses.nonempty
      obtain ⟨branch, rest', hitem, -, rfl⟩ := List.forall₂_cons_left_iff.mp hcollapses.sanitized
      obtain ⟨entries, entries', path, -, -, hbranch⟩ := hitem
      cases hbranch
  | succ levels => exact himage.faithful hbranches

/-- What the sanitizer accepts it rewrites faithfully. -/
theorem sanitizeKiroSchema_faithful :
    ∀ (levels : Nat) (schema result : List (JsString × Json)) (path : JsString),
      Json.distinctKeys (.object schema) = true →
      sanitizeKiroSchema regExps levels schema path = .ok result →
      Faithful regExps levels (.object schema) result := by
  intro levels
  induction levels with
  | zero =>
      intro schema result path _ h
      cases h
  | succ levels ih =>
      intro schema result path hkeys h
      have hsub : SanitizerAgrees regExps levels := by
        rintro item item' hdistinct ⟨entries, entries', path, rfl, rfl, hitem⟩
        exact (ih entries entries' path hdistinct hitem).agrees
      rcases checkUnions_cases (sanitizeKiroSchema_cases h).1 with
        ⟨hanyOf, honeOf⟩ | ⟨union, other, hunion, hsome, -, hother⟩
      · exact faithful_of_plain hsub hkeys hanyOf honeOf h
      · have hkeyword : ∃ keyword : BranchKeyword, keyword ≠ .allOf ∧ union = js keyword.name := by
          rcases List.mem_pair.mp hunion with heq | heq
          · exact ⟨.anyOf, nofun, (Prod.mk.inj heq).1⟩
          · exact ⟨.oneOf, nofun, (Prod.mk.inj heq).1⟩
        obtain ⟨keyword, hne, rfl⟩ := hkeyword
        exact faithful_of_union hne ih hkeys hsome hother h

/-- Whether a value satisfies a schema. -/
def satisfies (regExps : RegExps) (value schema : Json) (path : JsString) : Bool :=
  (validateSchemaValue regExps (maxSchemaValidationDepth + 1) value schema path).isNone

/-- A sanitized schema gives a value the verdict of the original one exactly when, if the
original one accepts the value, each part of it has the types that the union it is checked
against names. -/
theorem sanitizeKiroSchema_verdict_iff (regExps : RegExps)
    (schema sanitized : List (JsString × Json)) (schemaPath path : JsString) (value : Json)
    (hkeys : Json.distinctKeys (.object schema) = true)
    (h : sanitizeKiroSchema regExps (maxKiroSchemaDepth + 1) schema schemaPath = .ok sanitized) :
    satisfies regExps value (.object sanitized) path = satisfies regExps value (.object schema) path
      ↔ (satisfies regExps value (.object schema) path = true →
        meetsUnionTypes (maxSchemaValidationDepth + 1) value (.object schema) = true) := by
  have hagrees := (sanitizeKiroSchema_faithful (maxKiroSchemaDepth + 1) schema sanitized schemaPath
    hkeys h).agrees value path
  change validateSchemaValue regExps (maxSchemaValidationDepth + 1) value (.object sanitized) path =
    none ↔ validateSchemaValue regExps (maxSchemaValidationDepth + 1) value (.object schema) path =
      none ∧ meetsUnionTypes (maxSchemaValidationDepth + 1) value (.object schema) = true at hagrees
  rw [Bool.eq_iff_iff, satisfies, satisfies, Option.isNone_iff_eq_none, Option.isNone_iff_eq_none,
    hagrees]
  tauto

/-- A property that is the string "a" or null, with no type on the branch for null. -/
def letterOrNull : List (JsString × Json) :=
  [(js "type", .string (js "object")), (js "properties", .object [(js "x", .object
    [(js "anyOf", .array [.object [(js "type", .string (js "string")),
      (js "enum", .array [.string (js "a")])], .object [(js "const", .null)]])])])]

/-- `letterOrNull` sanitized: null is listed, but is no string. -/
def letterSanitized : List (JsString × Json) :=
  [(js "type", .string (js "object")), (js "properties", .object [(js "x", .object
    [(js "type", .string (js "string")), (js "enum", .array [.string (js "a"), .null])])])]

theorem sanitizeKiroSchema_letterOrNull :
    sanitizeKiroSchema (fun _ => none) (maxKiroSchemaDepth + 1) letterOrNull [] =
      .ok letterSanitized := by decide +kernel

theorem verdict_letterOrNull :
    satisfies (fun _ => none) (.object [(js "x", .string (js "a"))]) (.object letterSanitized) [] =
      satisfies (fun _ => none) (.object [(js "x", .string (js "a"))]) (.object letterOrNull) [] :=
  (sanitizeKiroSchema_verdict_iff (fun _ => none) letterOrNull letterSanitized [] [] _
    (by decide +kernel) sanitizeKiroSchema_letterOrNull).mpr fun _ => by decide +kernel

/-- A sanitized schema may reject what the schema accepts. -/
theorem sanitizeKiroSchema_rejects_null :
    ¬ ∀ (regExps : RegExps) (schema sanitized : List (JsString × Json)) (value : Json),
      Json.distinctKeys (.object schema) = true →
      sanitizeKiroSchema regExps (maxKiroSchemaDepth + 1) schema [] = .ok sanitized →
      satisfies regExps value (.object sanitized) [] =
        satisfies regExps value (.object schema) [] := by
  intro h
  have hverdict := h (fun _ => none) letterOrNull letterSanitized (.object [(js "x", .null)])
    (by decide +kernel) sanitizeKiroSchema_letterOrNull
  have haccepts : satisfies (fun _ => none) (.object [(js "x", .null)]) (.object letterOrNull) [] =
      true := by decide +kernel
  have hrejects : satisfies (fun _ => none) (.object [(js "x", .null)]) (.object letterSanitized)
      [] = false := by decide +kernel
  rw [haccepts, hrejects] at hverdict
  cases hverdict

end StonePlus.Kiro
