import StonePlus.Kiro.SchemaSanitizer
import StonePlus.Lib.Except

/-!
# StonePlus.Kiro.SchemaRewrite

What an accepted schema is rewritten into, keyword by keyword.

`Rewrites` lists what may be written under a keyword that is no union; `Image` says that the
result has that under each keyword of the schema, and nothing else.
-/

namespace StonePlus.Kiro

open Lib

/-! ## Clones -/

mutual

theorem cloneJsonValue_eq : ∀ {v v' : Json} {path : JsString}, cloneJsonValue v path = .ok v' → v' = v
  | .null, _, _, h => by
      cases h
      rfl
  | .bool _, _, _, h => by
      cases h
      rfl
  | .string _, _, _, h => by
      cases h
      rfl
  | .number n, v', path, h => by
      unfold cloneJsonValue at h
      split at h
      · cases h
        rfl
      · cases h
  | .array items, v', path, h => by
      unfold cloneJsonValue at h
      obtain ⟨items', hitems, heq⟩ := bind_eq_ok.mp h
      cases heq
      rw [cloneItems_eq hitems]
  | .object entries, v', path, h => by
      unfold cloneJsonValue at h
      obtain ⟨entries', hentries, heq⟩ := bind_eq_ok.mp h
      cases heq
      rw [cloneEntries_eq hentries]

theorem cloneItems_eq : ∀ {vs vs' : List Json} {path : JsString} {index : Nat},
    cloneItems path index vs = .ok vs' → vs' = vs
  | [], _, _, _, h => by
      cases h
      rfl
  | v :: vs, vs', path, index, h => by
      unfold cloneItems at h
      obtain ⟨v', hv, h⟩ := bind_eq_ok.mp h
      obtain ⟨rest, hrest, heq⟩ := bind_eq_ok.mp h
      cases heq
      rw [cloneJsonValue_eq hv, cloneItems_eq hrest]

theorem cloneEntries_eq : ∀ {es es' : List (JsString × Json)} {path : JsString},
    cloneEntries path es = .ok es' → es' = es
  | [], _, _, h => by
      cases h
      rfl
  | (k, v) :: es, es', path, h => by
      unfold cloneEntries at h
      obtain ⟨v', hv, h⟩ := bind_eq_ok.mp h
      obtain ⟨rest, hrest, heq⟩ := bind_eq_ok.mp h
      cases heq
      rw [cloneJsonValue_eq hv, cloneEntries_eq hrest]

end

@[simp] theorem definitionError_eq {α : Type} {a : α} :
    definitionError path reason = .ok a ↔ False := by
  simp [definitionError]

/-- A checked value is kept as it is. -/
theorem keepKeyword_eq (h : keepKeyword regExps key item keywordPath = .ok item') :
    item' = item := by
  have hchecked : ∀ {checked : Bool} {reason : JsString},
      (if checked then .ok item else definitionError keywordPath reason) = .ok item' →
        item' = item := by
    intro checked reason h
    cases checked <;> simp_all
  unfold keepKeyword at h
  by_cases htype : key = js "type"
  · rw [if_pos htype] at h
    exact hchecked h
  rw [if_neg htype] at h
  by_cases henum : key = js "enum"
  · rw [if_pos henum] at h
    split at h
    · obtain ⟨values, hvalues, heq⟩ := bind_eq_ok.mp h
      cases heq
      rw [cloneItems_eq hvalues]
    · simp at h
  rw [if_neg henum] at h
  by_cases hpattern : key = js "pattern"
  · rw [if_pos hpattern] at h
    split at h
    · exact hchecked h
    · simp at h
  rw [if_neg hpattern] at h
  by_cases hcount : isCountKeyword key = true
  · rw [if_pos hcount] at h
    exact hchecked h
  rw [if_neg hcount] at h
  by_cases hbound : isBoundKeyword key = true
  · rw [if_pos hbound] at h
    exact hchecked h
  rw [if_neg hbound] at h
  by_cases hflag : isFlagKeyword key = true
  · rw [if_pos hflag] at h
    split at h
    · cases h
      rfl
    · simp at h
  rw [if_neg hflag] at h
  split at h
  · split at h
    · cases h
      rfl
    · simp at h
  · exact cloneJsonValue_eq h

/-- A kept type is the name of one type. -/
theorem keepKeyword_type {item' : Json}
    (h : keepKeyword regExps (js "type") item keywordPath = .ok item') :
    ∃ name, item = .string name := by
  unfold keepKeyword at h
  rw [if_pos rfl] at h
  split_ifs at h with htype
  · unfold isJsonSchemaType at htype
    rw [decide_eq_true_iff, List.mem_map] at htype
    obtain ⟨name, -, rfl⟩ := htype
    exact ⟨js name, rfl⟩
  · simp at h

/-- A kept enumeration is an array. -/
theorem keepKeyword_enum {item' : Json}
    (h : keepKeyword regExps (js "enum") item keywordPath = .ok item') :
    ∃ values, item = .array values := by
  unfold keepKeyword at h
  rw [if_neg (by decide), if_pos rfl] at h
  split at h
  · exact ⟨_, rfl⟩
  · simp at h

/-! ## One keyword -/

/-- The keywords whose value is rewritten or dropped. -/
def rewrittenKeywords : List JsString :=
  ["const", "allOf", "anyOf", "oneOf", "properties", "additionalProperties", "items",
    "required"].map js

/-- A schema under a keyword and what it is rewritten into. -/
def SanitizesTo
    (sanitize : List (JsString × Json) → JsString → Sanitizing (List (JsString × Json)))
    (schema schema' : Json) : Prop :=
  ∃ entries entries' path, schema = .object entries ∧ schema' = .object entries' ∧
    sanitize entries path = .ok entries'

/-- What is written under a keyword that is no union. -/
inductive Rewrites
    (sanitize : List (JsString × Json) → JsString → Sanitizing (List (JsString × Json))) :
    JsString → Json → Option Json → Prop
  | const (item : Json) : Rewrites sanitize (js "const") item none
  | properties (properties sanitized : List (JsString × Json))
      (h : List.Forall₂ (fun e e' => e'.1 = e.1 ∧ SanitizesTo sanitize e.2 e'.2) properties
        sanitized) :
      Rewrites sanitize (js "properties") (.object properties) (some (.object sanitized))
  | flag (key : JsString) (hkey : key = js "additionalProperties" ∨ key = js "items") (b : Bool) :
      Rewrites sanitize key (.bool b) (some (.bool b))
  | schema (key : JsString) (hkey : key = js "additionalProperties" ∨ key = js "items")
      (item item' : Json) (h : SanitizesTo sanitize item item') :
      Rewrites sanitize key item (some item')
  | emptyRequired : Rewrites sanitize (js "required") (.array []) none
  | required (items : List Json) : Rewrites sanitize (js "required") (.array items)
      (some (.array items))
  | keep (key : JsString) (item : Json) (hkey : key ∉ rewrittenKeywords)
      (htype : key = js "type" → ∃ name, item = .string name)
      (henum : key = js "enum" → ∃ values, item = .array values) :
      Rewrites sanitize key item (some item)

/-- Write under a key, or leave it. -/
def writeUnder (key : JsString) (value : Option Json) (result : List (JsString × Json)) :
    List (JsString × Json) :=
  match value with
  | none => result
  | some value => Json.setProperty key value result

variable {result : List (JsString × Json)}

theorem property?_writeUnder (h : Json.property? result key = none) :
    Json.property? (writeUnder key value result) key' =
      if key = key' then value else Json.property? result key' := by
  cases value with
  | none =>
      rw [writeUnder]
      split
      · next heq => rw [← heq, h]
      · rfl
  | some value => exact Json.property?_setProperty

variable {sanitize : List (JsString × Json) → JsString → Sanitizing (List (JsString × Json))}
variable {regExps : RegExps} {path : JsString}

theorem expectObject_eq {path : JsString} (h : expectObject value path = .ok entries) :
    value = .object entries := by
  unfold expectObject at h
  split at h
  · cases h
    rfl
  · cases h

/-- A pass over a list that succeeds, item by item. -/
theorem forall₂_of_mapM {α β ε : Type} {f : α → Except ε β} {as : List α} {bs : List β}
    (h : as.mapM f = .ok bs) : List.Forall₂ (fun a b => f a = .ok b) as bs := by
  induction as generalizing bs with
  | nil =>
      cases h
      exact .nil
  | cons a as ih =>
      rw [List.mapM_cons] at h
      obtain ⟨b, hb, h⟩ := bind_eq_ok.mp h
      obtain ⟨rest, hrest, heq⟩ := bind_eq_ok.mp h
      cases heq
      exact .cons hb (ih hrest)

/-- The turns of the loop, but for unions. -/
theorem sanitizeEntry_cases {result' : List (JsString × Json)}
    (hunion : isUnionKeyword key = false)
    (h : sanitizeEntry regExps sanitize path result (key, item) = .ok result') :
    (key ∉ rejectedKiroSchemaKeywords ∧ key ≠ js "allOf") ∧
      ∃ value, Rewrites sanitize key item value ∧ result' = writeUnder key value result := by
  unfold sanitizeEntry at h
  dsimp only at h
  by_cases hrejected : key ∈ rejectedKiroSchemaKeywords
  · simp [hrejected] at h
  rw [if_neg hrejected] at h
  by_cases hsupported : key ∉ supportedKiroSchemaKeywords
  · simp [hsupported] at h
  rw [if_neg hsupported] at h
  by_cases hconst : key = js "const"
  · rw [if_pos hconst] at h
    cases h
    refine ⟨⟨hrejected, by simp [hconst]; decide⟩, none, hconst ▸ .const item, rfl⟩
  rw [if_neg hconst] at h
  by_cases hallOf : key = js "allOf"
  · simp [hallOf] at h
  rw [if_neg hallOf, if_neg (by simp [hunion])] at h
  refine ⟨⟨hrejected, hallOf⟩, ?_⟩
  by_cases hproperties : key = js "properties"
  · rw [if_pos hproperties] at h
    obtain ⟨properties, hitem, h⟩ := bind_eq_ok.mp h
    obtain ⟨sanitized, hsanitized, heq⟩ := bind_eq_ok.mp h
    cases heq
    rw [expectObject_eq hitem]
    refine ⟨some (.object sanitized), hproperties ▸ .properties properties sanitized ?_, rfl⟩
    refine (forall₂_of_mapM hsanitized).imp fun e e' he => ?_
    obtain ⟨entries, hentries, he⟩ := bind_eq_ok.mp he
    obtain ⟨entries', hentries', he⟩ := bind_eq_ok.mp he
    cases he
    exact ⟨rfl, entries, entries', _, expectObject_eq hentries, rfl, hentries'⟩
  rw [if_neg hproperties] at h
  by_cases hschema : key = js "additionalProperties" ∨ key = js "items"
  · rw [if_pos hschema] at h
    split at h
    · cases h
      exact ⟨_, .flag key hschema _, rfl⟩
    · obtain ⟨entries, hentries, h⟩ := bind_eq_ok.mp h
      obtain ⟨entries', hentries', heq⟩ := bind_eq_ok.mp h
      cases heq
      exact ⟨_, .schema key hschema item _
        ⟨entries, entries', _, expectObject_eq hentries, rfl, hentries'⟩, rfl⟩
  rw [if_neg hschema] at h
  by_cases hrequired : key = js "required"
  · rw [if_pos hrequired] at h
    subst hrequired
    split at h
    · next items =>
      split at h
      · split_ifs at h with hunique hempty
        · simp at h
        · cases h
          rw [hempty]
          exact ⟨none, .emptyRequired, rfl⟩
        · cases h
          exact ⟨_, .required items, rfl⟩
      · simp at h
    · simp at h
  rw [if_neg hrequired] at h
  obtain ⟨kept, hkept, heq⟩ := bind_eq_ok.mp h
  cases heq
  obtain rfl := keepKeyword_eq hkept
  refine ⟨some kept, .keep key kept ?_ (fun htype => ?_) fun henum => ?_, rfl⟩
  · simp only [isUnionKeyword, Bool.or_eq_false_iff, beq_eq_false_iff_ne] at hunion
    simp only [rewrittenKeywords, List.map_cons, List.map_nil, List.mem_cons, List.not_mem_nil,
      or_false, not_or]
    exact ⟨hconst, hallOf, hunion.1, hunion.2, hproperties, fun h => hschema (.inl h),
      fun h => hschema (.inr h), hrequired⟩
  · exact keepKeyword_type (htype ▸ hkept)
  · exact keepKeyword_enum (henum ▸ hkept)

/-! ## All keywords -/

/-- Under each keyword the result has what it is rewritten into, and nothing else. -/
def Image (sanitize : List (JsString × Json) → JsString → Sanitizing (List (JsString × Json)))
    (schema result : List (JsString × Json)) : Prop :=
  ∀ key, (Json.property? schema key = none → Json.property? result key = none) ∧
    ∀ item, Json.property? schema key = some item →
      (key ∉ rejectedKiroSchemaKeywords ∧ key ≠ js "allOf") ∧
        Rewrites sanitize key item (Json.property? result key)

/-- The loop over a schema without unions. -/
theorem image_of_foldlM (hunion : ∀ e ∈ schema, isUnionKeyword e.1 = false)
    (hkeys : (schema.map Prod.fst).Nodup) (hinit : ∀ e ∈ schema, Json.property? init e.1 = none)
    (h : schema.foldlM (sanitizeEntry regExps sanitize path) init = .ok result) (key : JsString) :
    (Json.property? schema key = none → Json.property? result key = Json.property? init key) ∧
      ∀ item, Json.property? schema key = some item →
        (key ∉ rejectedKiroSchemaKeywords ∧ key ≠ js "allOf") ∧
          Rewrites sanitize key item (Json.property? result key) := by
  induction schema generalizing init with
  | nil =>
      cases h
      exact ⟨fun _ => rfl, fun item hitem => by cases hitem⟩
  | cons e schema ih =>
      obtain ⟨hnot, hkeys⟩ := List.nodup_cons.mp hkeys
      obtain ⟨hne, hunion⟩ := List.forall_mem_cons.mp hunion
      obtain ⟨hfresh, hinit⟩ := List.forall_mem_cons.mp hinit
      rw [List.foldlM_cons] at h
      obtain ⟨init', hentry, h⟩ := bind_eq_ok.mp h
      obtain ⟨hsupported, value, hrewrites, rfl⟩ := sanitizeEntry_cases hne hentry
      have hwrite : ∀ key', Json.property? (writeUnder e.1 value init) key' =
          if e.1 = key' then value else Json.property? init key' :=
        fun key' => property?_writeUnder hfresh
      have hlater : ∀ e' ∈ schema, Json.property? (writeUnder e.1 value init) e'.1 = none := by
        intro e' he'
        have hne : e.1 ≠ e'.1 := fun heq => hnot (heq ▸ List.mem_map_of_mem he')
        rw [hwrite, if_neg hne]
        exact hinit e' he'
      have hrest := ih hunion hkeys hlater h
      by_cases heq : e.1 = key
      · subst heq
        rw [Json.property?_cons, if_pos rfl]
        refine ⟨nofun, fun item hitem => ?_⟩
        cases hitem
        rw [hrest.1 (Json.property?_eq_none hnot), hwrite, if_pos rfl]
        exact ⟨hsupported, hrewrites⟩
      · rw [Json.property?_cons, if_neg heq]
        refine ⟨fun hnone => ?_, hrest.2⟩
        rw [hrest.1 hnone, hwrite, if_neg heq]

theorem property?_foldConst {key : JsString} (h : key ≠ js "enum") :
    Json.property? (foldConst result constValue) key = Json.property? result key :=
  Json.property?_setProperty_of_ne fun heq => h heq.symm

end StonePlus.Kiro
