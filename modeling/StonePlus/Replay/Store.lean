import StonePlus.Js.Json
import StonePlus.Js.Map
import StonePlus.Replay.Budget

/-!
# StonePlus.Replay.Store

`redactValue` and `redactContentShape` of `gateway/request-replay.ts`, and what
they show of the values under sensitive keys.

`fillSecrets x` puts `x` under every sensitive key.  Two bodies that differ
only in such values are those with the same filling, and a body is exposed
when two fillings are redacted differently.
-/

namespace StonePlus.Replay

/-! ## Keys -/

/-- The regular expression `/^(?:words)$/i`, which ignores the case of ASCII
letters only. -/
def isKeyAmong (words : List String) (key : JsString) : Bool :=
  words.any fun word => js word == toLowerCase key

/-- Two words joined by nothing, a hyphen or an underscore. -/
def joined (first second : String) : List String :=
  [first ++ second, first ++ "-" ++ second, first ++ "_" ++ second]

/-- `SENSITIVE_KEY`. -/
def isSensitiveKey (key : JsString) : Bool :=
  isKeyAmong (["authorization"] ++ joined "api" "key" ++ joined "access" "token" ++
    joined "refresh" "token" ++ ["secret", "password", "cookie"] ++ joined "private" "key" ++
    joined "agent" "assertion") key

/-- `CONTENT_KEY`. -/
def isContentKey (key : JsString) : Bool :=
  isKeyAmong ["input", "messages", "prompt", "instructions", "content", "text"] key

/-- The keys whose values `redactContentShape` passes through. -/
def isShapeKey (key : JsString) : Bool := isKeyAmong ["type", "role", "name", "id"] key

/-! ## Redaction -/

mutual

def redactContentShape : Json → Json
  | .string _ => .string (js "[CONTENT REDACTED]")
  | .array items => .array (redactContentItems items)
  | .object entries => .object (redactContentEntries entries)
  | .null => .null
  | .bool b => .bool b
  | .number n => .number n

def redactContentItems : List Json → List Json
  | [] => []
  | v :: vs => redactContentShape v :: redactContentItems vs

def redactContentEntries : List (JsString × Json) → List (JsString × Json)
  | [] => []
  | (key, child) :: es =>
    (key, if isShapeKey key then child else redactContentShape child) :: redactContentEntries es

end

/-- What is shown in the place of a sensitive value. -/
def redacted : Json := .string (js "[REDACTED]")

mutual

def redactValue (includeContent : Bool) (key : JsString) (value : Json) : Json :=
  if isSensitiveKey key then redacted
  else if !includeContent && isContentKey key then redactContentShape value
  else
    match value with
    | .array items => .array (redactItems includeContent key items)
    | .object entries => .object (redactEntries includeContent entries)
    | v => v

def redactItems (includeContent : Bool) (key : JsString) : List Json → List Json
  | [] => []
  | v :: vs => redactValue includeContent key v :: redactItems includeContent key vs

def redactEntries (includeContent : Bool) : List (JsString × Json) → List (JsString × Json)
  | [] => []
  | (key, child) :: es =>
    (key, redactValue includeContent key child) :: redactEntries includeContent es

end

theorem redactContentItems_eq (items : List Json) :
    redactContentItems items = items.map redactContentShape := by
  induction items with
  | nil => rfl
  | cons v vs ih => rw [redactContentItems, ih, List.map_cons]

theorem redactContentEntries_eq (entries : List (JsString × Json)) :
    redactContentEntries entries = entries.map fun e =>
      (e.1, if isShapeKey e.1 then e.2 else redactContentShape e.2) := by
  induction entries with
  | nil => rfl
  | cons e es ih => rw [redactContentEntries, ih, List.map_cons]

theorem redactItems_eq (includeContent : Bool) (key : JsString) (items : List Json) :
    redactItems includeContent key items = items.map (redactValue includeContent key) := by
  induction items with
  | nil => rfl
  | cons v vs ih => rw [redactItems, ih, List.map_cons]

theorem redactEntries_eq (includeContent : Bool) (entries : List (JsString × Json)) :
    redactEntries includeContent entries =
      entries.map fun e => (e.1, redactValue includeContent e.1 e.2) := by
  induction entries with
  | nil => rfl
  | cons e es ih => rw [redactEntries, ih, List.map_cons]

/-! ## Sensitive values -/

mutual

/-- Put one value under every sensitive key. -/
def fillSecrets (x : Json) : Json → Json
  | .array items => .array (fillItems x items)
  | .object entries => .object (fillEntries x entries)
  | v => v

def fillItems (x : Json) : List Json → List Json
  | [] => []
  | v :: vs => fillSecrets x v :: fillItems x vs

def fillEntries (x : Json) : List (JsString × Json) → List (JsString × Json)
  | [] => []
  | (key, child) :: es =>
    (key, if isSensitiveKey key then x else fillSecrets x child) :: fillEntries x es

end

mutual

/-- A sensitive key occurs somewhere in the value. -/
def hasSensitiveKey : Json → Bool
  | .array items => itemsHaveSensitiveKey items
  | .object entries => entriesHaveSensitiveKey entries
  | _ => false

def itemsHaveSensitiveKey : List Json → Bool
  | [] => false
  | v :: vs => hasSensitiveKey v || itemsHaveSensitiveKey vs

def entriesHaveSensitiveKey : List (JsString × Json) → Bool
  | [] => false
  | (key, child) :: es =>
    isSensitiveKey key || hasSensitiveKey child || entriesHaveSensitiveKey es

end

mutual

/-- A sensitive key occurs inside a value that is redacted as content. -/
def exposesSecret (includeContent : Bool) (key : JsString) (value : Json) : Bool :=
  if isSensitiveKey key then false
  else if !includeContent && isContentKey key then hasSensitiveKey value
  else
    match value with
    | .array items => itemsExposeSecret includeContent key items
    | .object entries => entriesExposeSecret includeContent entries
    | _ => false

def itemsExposeSecret (includeContent : Bool) (key : JsString) : List Json → Bool
  | [] => false
  | v :: vs => exposesSecret includeContent key v || itemsExposeSecret includeContent key vs

def entriesExposeSecret (includeContent : Bool) : List (JsString × Json) → Bool
  | [] => false
  | (key, child) :: es =>
    exposesSecret includeContent key child || entriesExposeSecret includeContent es

end

theorem fillItems_eq (x : Json) (items : List Json) :
    fillItems x items = items.map (fillSecrets x) := by
  induction items with
  | nil => rfl
  | cons v vs ih => rw [fillItems, ih, List.map_cons]

theorem fillEntries_eq (x : Json) (entries : List (JsString × Json)) :
    fillEntries x entries =
      entries.map fun e => (e.1, if isSensitiveKey e.1 then x else fillSecrets x e.2) := by
  induction entries with
  | nil => rfl
  | cons e es ih => rw [fillEntries, ih, List.map_cons]

theorem itemsHaveSensitiveKey_iff :
    itemsHaveSensitiveKey items = true ↔ ∃ v ∈ items, hasSensitiveKey v = true := by
  induction items with
  | nil => simp [itemsHaveSensitiveKey]
  | cons v vs ih => simp [itemsHaveSensitiveKey, ih]

theorem entriesHaveSensitiveKey_iff : entriesHaveSensitiveKey entries = true ↔
      ∃ e ∈ entries, isSensitiveKey e.1 = true ∨ hasSensitiveKey e.2 = true := by
  induction entries with
  | nil => simp [entriesHaveSensitiveKey]
  | cons e es ih => simp [entriesHaveSensitiveKey, ih]

theorem itemsExposeSecret_iff : itemsExposeSecret includeContent key items = true ↔
      ∃ v ∈ items, exposesSecret includeContent key v = true := by
  induction items with
  | nil => simp [itemsExposeSecret]
  | cons v vs ih => simp [itemsExposeSecret, ih]

theorem entriesExposeSecret_iff : entriesExposeSecret includeContent entries = true ↔
      ∃ e ∈ entries, exposesSecret includeContent e.1 e.2 = true := by
  induction entries with
  | nil => simp [entriesExposeSecret]
  | cons e es ih => simp [entriesExposeSecret, ih]

/-! ## Filling -/

/-- Without a sensitive key there is nothing to fill. -/
theorem fillSecrets_of_not_hasSensitiveKey (x : Json) (h : hasSensitiveKey v = false) :
    fillSecrets x v = v := by
  induction v using Json.induction with
  | null | bool | number | string => rfl
  | array items ih =>
      have hitems : ∀ v ∈ items, fillSecrets x v = v := fun v hv =>
        ih v hv (Bool.eq_false_iff.mpr fun hs =>
          Bool.eq_false_iff.mp h (itemsHaveSensitiveKey_iff.mpr ⟨v, hv, hs⟩))
      rw [fillSecrets, fillItems_eq, List.map_congr_left hitems, List.map_id']
  | object entries ih =>
      have hentries : ∀ e ∈ entries,
          ((e.1, if isSensitiveKey e.1 then x else fillSecrets x e.2) : JsString × Json) = e := by
        intro e he
        have hkey : ¬ (isSensitiveKey e.1 = true ∨ hasSensitiveKey e.2 = true) := fun hs =>
          Bool.eq_false_iff.mp h (entriesHaveSensitiveKey_iff.mpr ⟨e, he, hs⟩)
        rw [not_or] at hkey
        rw [if_neg hkey.1, ih e he (Bool.eq_false_iff.mpr hkey.2)]
      rw [fillSecrets, fillEntries_eq, List.map_congr_left hentries, List.map_id']

/-- Filling keeps the keys outside the values it fills. -/
theorem hasSensitiveKey_fillSecrets (x v : Json) :
    hasSensitiveKey (fillSecrets x v) = hasSensitiveKey v := by
  rw [Bool.eq_iff_iff]
  induction v using Json.induction with
  | null | bool | number | string => rfl
  | array items ih =>
      simp only [fillSecrets, fillItems_eq, hasSensitiveKey, itemsHaveSensitiveKey_iff,
        List.mem_map,
        exists_exists_and_eq_and]
      exact exists_congr fun v => and_congr_right fun hv => ih v hv
  | object entries ih =>
      simp only [fillSecrets, fillEntries_eq, hasSensitiveKey, entriesHaveSensitiveKey_iff,
        List.mem_map,
        exists_exists_and_eq_and]
      refine exists_congr fun e => and_congr_right fun he => ?_
      by_cases hkey : isSensitiveKey e.1
      · simp [hkey]
      · simp [hkey, ih e he]

/-- A later filling replaces an earlier one. -/
theorem fillSecrets_fillSecrets (x y v : Json) :
    fillSecrets x (fillSecrets y v) = fillSecrets x v := by
  induction v using Json.induction with
  | null | bool | number | string => rfl
  | array items ih =>
      simp only [fillSecrets, fillItems_eq, List.map_map, Json.array.injEq, List.map_inj_left]
      exact ih
  | object entries ih =>
      simp only [fillSecrets, fillEntries_eq, List.map_map, Json.object.injEq, List.map_inj_left]
      intro e he
      by_cases hkey : isSensitiveKey e.1
      · simp [hkey]
      · simp [hkey, ih e he]

/-! ## What the redaction shows -/

/-- No word of `SENSITIVE_KEY` is passed through by `redactContentShape`. -/
theorem not_isShapeKey_of_isSensitiveKey (h : isSensitiveKey key = true) :
    isShapeKey key = false := by
  obtain ⟨word, hword, heq⟩ := List.any_eq_true.mp h
  rw [Bool.eq_false_iff]
  intro hshape
  obtain ⟨shape, hmem, hshape⟩ := List.any_eq_true.mp hshape
  have hdistinct : ∀ w ∈ ["authorization"] ++ joined "api" "key" ++ joined "access" "token" ++
      joined "refresh" "token" ++ ["secret", "password", "cookie"] ++ joined "private" "key" ++
      joined "agent" "assertion", ∀ s ∈ ["type", "role", "name", "id"], js w ≠ js s := by decide
  exact hdistinct word hword shape hmem ((eq_of_beq heq).trans (eq_of_beq hshape).symm)

theorem redactValue_of_isSensitiveKey (includeContent : Bool) (v : Json)
    (h : isSensitiveKey key = true) : redactValue includeContent key v = redacted := by
  unfold redactValue
  rw [if_pos h]

theorem exposesSecret_of_isSensitiveKey (includeContent : Bool) (v : Json)
    (h : isSensitiveKey key = true) : exposesSecret includeContent key v = false := by
  unfold exposesSecret
  rw [if_pos h]

/-- Where no secret is exposed, the redaction does not depend on the values
under sensitive keys. -/
theorem redactValue_fillSecrets (x : Json) (h : exposesSecret includeContent key v = false) :
    redactValue includeContent key (fillSecrets x v) = redactValue includeContent key v := by
  induction v using Json.induction generalizing key with
  | null | bool | number | string => rfl
  | array items ih =>
      unfold exposesSecret at h
      unfold redactValue
      split_ifs at h ⊢ with hkey hcontent
      · rfl
      · rw [fillSecrets_of_not_hasSensitiveKey x h]
      · simp only [fillSecrets, fillItems_eq, redactItems_eq, List.map_map, Json.array.injEq,
          List.map_inj_left]
        intro v hv
        exact ih v hv (Bool.eq_false_iff.mpr fun hs =>
          Bool.eq_false_iff.mp h (itemsExposeSecret_iff.mpr ⟨v, hv, hs⟩))
  | object entries ih =>
      unfold exposesSecret at h
      unfold redactValue
      split_ifs at h ⊢ with hkey hcontent
      · rfl
      · rw [fillSecrets_of_not_hasSensitiveKey x h]
      · simp only [fillSecrets, fillEntries_eq, redactEntries_eq, List.map_map, Json.object.injEq,
          List.map_inj_left]
        intro e he
        have hchild : exposesSecret includeContent e.1 e.2 = false :=
          Bool.eq_false_iff.mpr fun hs =>
            Bool.eq_false_iff.mp h (entriesExposeSecret_iff.mpr ⟨e, he, hs⟩)
        by_cases hsensitive : isSensitiveKey e.1
        · simp only [Function.comp_apply, redactValue_of_isSensitiveKey _ _ hsensitive]
        · simp [hsensitive, ih e he hchild]

/-- Filling neither exposes nor hides a secret. -/
theorem exposesSecret_fillSecrets (x : Json) (includeContent : Bool) (key : JsString) (v : Json) :
    exposesSecret includeContent key (fillSecrets x v) = exposesSecret includeContent key v := by
  rw [Bool.eq_iff_iff]
  induction v using Json.induction generalizing key with
  | null | bool | number | string => rfl
  | array items ih =>
      unfold exposesSecret
      split_ifs with hkey hcontent
      · rfl
      · rw [hasSensitiveKey_fillSecrets]
      · simp only [fillSecrets, fillItems_eq, itemsExposeSecret_iff, List.mem_map,
          exists_exists_and_eq_and]
        exact exists_congr fun v => and_congr_right fun hv => ih v hv key
  | object entries ih =>
      unfold exposesSecret
      split_ifs with hkey hcontent
      · rfl
      · rw [hasSensitiveKey_fillSecrets]
      · simp only [fillSecrets, fillEntries_eq, entriesExposeSecret_iff, List.mem_map,
          exists_exists_and_eq_and]
        refine exists_congr fun e => and_congr_right fun he => ?_
        by_cases hsensitive : isSensitiveKey e.1
        · rw [exposesSecret_of_isSensitiveKey _ _ hsensitive,
            exposesSecret_of_isSensitiveKey _ _ hsensitive]
        · rw [if_neg hsensitive]
          exact ih e he e.1

/-- Two fillings of a value with a sensitive key differ. -/
theorem fillSecrets_ne (hxy : x ≠ y) (h : hasSensitiveKey v = true) :
    fillSecrets x v ≠ fillSecrets y v := by
  induction v using Json.induction with
  | null | bool | number | string => cases h
  | array items ih =>
      obtain ⟨v, hv, hs⟩ := itemsHaveSensitiveKey_iff.mp h
      simp only [fillSecrets, fillItems_eq, ne_eq, Json.array.injEq, List.map_inj_left]
      exact fun heq => ih v hv hs (heq v hv)
  | object entries ih =>
      obtain ⟨e, he, hs⟩ := entriesHaveSensitiveKey_iff.mp h
      simp only [fillSecrets, fillEntries_eq, ne_eq, Json.object.injEq, List.map_inj_left]
      intro heq
      have heq := congrArg Prod.snd (heq e he)
      by_cases hkey : isSensitiveKey e.1
      · exact hxy (by simpa [hkey] using heq)
      · exact ih e he (hs.resolve_left hkey) (by simpa [hkey] using heq)

/-- Content with a sensitive key in it shows which of two values fills it, if
`redactContentShape` does not hide the two values themselves. -/
theorem redactContentShape_fillSecrets_ne (hxy : redactContentShape x ≠ redactContentShape y)
    (h : hasSensitiveKey v = true) :
    redactContentShape (fillSecrets x v) ≠ redactContentShape (fillSecrets y v) := by
  induction v using Json.induction with
  | null | bool | number | string => cases h
  | array items ih =>
      obtain ⟨v, hv, hs⟩ := itemsHaveSensitiveKey_iff.mp h
      simp only [fillSecrets, fillItems_eq, redactContentShape, redactContentItems_eq, List.map_map,
        ne_eq, Json.array.injEq, List.map_inj_left]
      exact fun heq => ih v hv hs (heq v hv)
  | object entries ih =>
      obtain ⟨e, he, hs⟩ := entriesHaveSensitiveKey_iff.mp h
      simp only [fillSecrets, fillEntries_eq, redactContentShape, redactContentEntries_eq,
        List.map_map, ne_eq, Json.object.injEq, List.map_inj_left]
      intro heq
      have heq := congrArg Prod.snd (heq e he)
      by_cases hkey : isSensitiveKey e.1
      · have hshape := not_isShapeKey_of_isSensitiveKey hkey
        exact hxy (by simpa [hkey, hshape] using heq)
      · have hchild := hs.resolve_left hkey
        by_cases hshape : isShapeKey e.1
        · exact fillSecrets_ne (fun hxy' => hxy (congrArg redactContentShape hxy')) hchild
            (by simpa [hkey, hshape] using heq)
        · exact ih e he hchild (by simpa [hkey, hshape] using heq)

/-- An exposed secret shows which of two values it is. -/
theorem redactValue_fillSecrets_ne (hxy : redactContentShape x ≠ redactContentShape y)
    (h : exposesSecret includeContent key v = true) :
    redactValue includeContent key (fillSecrets x v) ≠
      redactValue includeContent key (fillSecrets y v) := by
  induction v using Json.induction generalizing key with
  | null | bool | number | string =>
      unfold exposesSecret at h
      split_ifs at h
      cases h
  | array items ih =>
      unfold exposesSecret at h
      unfold redactValue
      split_ifs at h ⊢ with hkey hcontent
      · exact redactContentShape_fillSecrets_ne hxy h
      · obtain ⟨v, hv, hs⟩ := itemsExposeSecret_iff.mp h
        simp only [fillSecrets, fillItems_eq, redactItems_eq, List.map_map, ne_eq,
          Json.array.injEq, List.map_inj_left]
        exact fun heq => ih v hv hs (heq v hv)
  | object entries ih =>
      unfold exposesSecret at h
      unfold redactValue
      split_ifs at h ⊢ with hkey hcontent
      · exact redactContentShape_fillSecrets_ne hxy h
      · obtain ⟨e, he, hs⟩ := entriesExposeSecret_iff.mp h
        simp only [fillSecrets, fillEntries_eq, redactEntries_eq, List.map_map, ne_eq,
          Json.object.injEq, List.map_inj_left]
        intro heq
        have heq := congrArg Prod.snd (heq e he)
        have hsensitive : isSensitiveKey e.1 = false := by
          rw [Bool.eq_false_iff]
          intro hsensitive
          rw [exposesSecret_of_isSensitiveKey _ _ hsensitive] at hs
          cases hs
        exact ih e he hs (by simpa [hsensitive] using heq)

/-- With `includeContent` nothing is redacted as content. -/
theorem exposesSecret_includeContent (key : JsString) (v : Json) :
    exposesSecret true key v = false := by
  induction v using Json.induction generalizing key with
  | null | bool | number | string => simp [exposesSecret]
  | array items ih =>
      rw [Bool.eq_false_iff]
      intro h
      unfold exposesSecret at h
      split_ifs at h with hkey hcontent
      · cases hcontent
      · obtain ⟨v, hv, hs⟩ := itemsExposeSecret_iff.mp h
        exact Bool.eq_false_iff.mp (ih v hv key) hs
  | object entries ih =>
      rw [Bool.eq_false_iff]
      intro h
      unfold exposesSecret at h
      split_ifs at h with hkey hcontent
      · cases hcontent
      · obtain ⟨e, he, hs⟩ := entriesExposeSecret_iff.mp h
        exact Bool.eq_false_iff.mp (ih e he e.1) hs

end StonePlus.Replay

/-!
## The store

`RequestReplayStore` of `gateway/request-replay.ts`: captured requests by id,
oldest first, each with an expiry time.

A method that reads the clock takes the time as an argument.  The body a
capture stores is the one its JSON text reads back as.
-/

namespace StonePlus.Replay

/-- `RequestReplayCapture`. -/
structure RequestReplayCapture where
  id : JsString
  path : JsString
  routeId : JsString
  body : Json
  sourceByteLength : Option Nat
  headers : Option (List (JsString × Option JsString))
  createdAt : Option Int

/-- `StoredReplay`. -/
structure StoredReplay where
  id : JsString
  path : JsString
  routeId : JsString
  body : Json
  headers : JsMap JsString JsString
  createdAt : Int
  expiresAt : Int

/-- `SanitizedRequestReplay`. -/
structure SanitizedRequestReplay where
  id : JsString
  path : JsString
  body : Json
  headers : JsMap JsString JsString
  createdAt : Int
  expiresAt : Int
  contentRedacted : Bool

mutual

/-- `JSON.parse(JSON.stringify(value))`: a number that is not finite reads back
as null, and the negative zero as zero. -/
def clone : Json → Json
  | .number n => if n.isFinite then .number (if n == .ofInt 0 then .ofInt 0 else n) else .null
  | .array items => .array (cloneItems items)
  | .object entries => .object (cloneEntries entries)
  | .null => .null
  | .bool b => .bool b
  | .string s => .string s

def cloneItems : List Json → List Json
  | [] => []
  | v :: vs => clone v :: cloneItems vs

def cloneEntries : List (JsString × Json) → List (JsString × Json)
  | [] => []
  | (key, child) :: es => (key, clone child) :: cloneEntries es

end

/-- The request headers a replay sends again. -/
def allowedHeaders : List JsString :=
  [js "accept", js "openai-beta", js "x-codex-beta-features",
    js "x-openai-internal-codex-responses-lite", js "x-stainless-helper-method"]

def sanitizeHeaders (headers : List (JsString × Option JsString)) : JsMap JsString JsString :=
  headers.foldl (fun sanitized (key, value) =>
    match value with
    | some value =>
      if toLowerCase key ∈ allowedHeaders ∧ value.length ≤ 512
      then sanitized.set (toLowerCase key) value else sanitized
    | none => sanitized) ∅

structure RequestReplayStore where
  entries : JsMap JsString StoredReplay
  ttlMs : Int
  maxEntries : Nat
  maxPayloadBytes : Nat

namespace RequestReplayStore

/-- The constructor. -/
def init (ttlMs : Option Int) (maxEntries maxPayloadBytes : Option Nat) : RequestReplayStore where
  entries := ∅
  ttlMs := max 10000 (ttlMs.getD (30 * 60000))
  maxEntries := max 1 (maxEntries.getD 50)
  maxPayloadBytes := max 1024 (maxPayloadBytes.getD (1024 * 1024))

/-- Forget the expired entries. -/
def prune (s : RequestReplayStore) (now : Int) : RequestReplayStore :=
  { s with entries := s.entries.filterKeys fun id =>
      !(s.entries.get? id).any fun entry => entry.expiresAt ≤ now }

/-- `while (this.entries.size > this.maxEntries)`: delete the oldest entry. -/
def evict (maxEntries : Nat) (entries : JsMap JsString StoredReplay) : JsMap JsString StoredReplay :=
  if maxEntries < entries.size then
    match _h : entries.keys with
    | [] => entries
    | oldest :: _ => evict maxEntries (entries.delete oldest)
  else entries
termination_by entries.size
decreasing_by
  have hmem : oldest ∈ entries.keys := _h ▸ List.mem_cons_self
  obtain ⟨e, he, heq⟩ := List.mem_map.mp hmem
  exact List.length_filter_lt_length_iff_exists.mpr ⟨e, he, by simp [heq]⟩

/-- Whether a request may be captured. -/
def accepts (s : RequestReplayStore) (input : RequestReplayCapture) : Bool :=
  if input.id.trim = [] || !(js "/").isPrefixOf input.path then false
  else if input.sourceByteLength.any fun n => s.maxPayloadBytes < n then false
  else if !jsonFitsByteBudget input.body s.maxPayloadBytes then false
  else decide (input.body.stringify.byteLength ≤ s.maxPayloadBytes)

def capture (s : RequestReplayStore) (input : RequestReplayCapture) (now : Int) :
    Bool × RequestReplayStore :=
  let s := s.prune now
  if s.accepts input then
    let createdAt := input.createdAt.getD now
    let entry : StoredReplay :=
      { id := input.id
        path := input.path
        routeId := input.routeId
        body := clone input.body
        headers := sanitizeHeaders (input.headers.getD [])
        createdAt := createdAt
        expiresAt := createdAt + s.ttlMs }
    let entries := (s.entries.delete input.id).set input.id entry
    (true, { s with entries := evict s.maxEntries entries })
  else (false, s)

/-- `get`, with `includeContent` as the strict test leaves it. -/
def get (s : RequestReplayStore) (id : JsString) (includeContent : Bool) (now : Int) :
    Option SanitizedRequestReplay × RequestReplayStore :=
  let s := s.prune now
  let template := (s.entries.get? id).map fun entry =>
    let body := redactValue includeContent [] entry.body
    { id := entry.id
      path := entry.path
      body := body
      headers := entry.headers
      createdAt := entry.createdAt
      expiresAt := entry.expiresAt
      contentRedacted := !includeContent && decide (body ≠ entry.body) }
  (template, s)

def routeId (s : RequestReplayStore) (id : JsString) (now : Int) :
    Option JsString × RequestReplayStore :=
  let s := s.prune now
  ((s.entries.get? id).map StoredReplay.routeId, s)

def delete (s : RequestReplayStore) (id : JsString) : RequestReplayStore :=
  { s with entries := s.entries.delete id }

def clear (s : RequestReplayStore) : RequestReplayStore := { s with entries := ∅ }

/-! ## Entries -/

variable {s : RequestReplayStore} {id : JsString}

/-- Pruning only forgets. -/
theorem get?_prune (h : (s.prune now).entries.get? id = some entry) :
    s.entries.get? id = some entry := by
  rw [prune, JsMap.get?_filterKeys] at h
  split at h
  · exact h
  · cases h

theorem get_of_entry (includeContent : Bool) (h : (s.prune now).entries.get? id = some entry) :
    ∃ r, (s.get id includeContent now).1 = some r ∧
      r.body = redactValue includeContent [] entry.body := by
  rw [get, h]
  exact ⟨_, rfl, rfl⟩

theorem evict_of_le {maxEntries : Nat} {entries : JsMap JsString StoredReplay}
    (h : entries.size ≤ maxEntries) : evict maxEntries entries = entries := by
  rw [evict, if_neg (Nat.not_lt.mpr h)]

/-- Evicting only forgets. -/
theorem get?_evict {maxEntries : Nat} {entries : JsMap JsString StoredReplay}
    (h : (evict maxEntries entries).get? id = some entry) : entries.get? id = some entry := by
  fun_induction evict maxEntries entries with
  | case1 entries hsize hkeys => exact h
  | case2 entries hsize oldest rest hkeys ih =>
      have := ih h
      rw [JsMap.get?_delete] at this
      split at this
      · cases this
      · exact this
  | case3 entries hsize => exact h

/-- A capture changes no entry but its own. -/
theorem get?_capture (h : (s.capture input now).2.entries.get? id = some entry) :
    (id = input.id ∧ (s.capture input now).1 = true ∧ entry.body = clone input.body) ∨
      (¬ (id = input.id ∧ (s.capture input now).1 = true) ∧ s.entries.get? id = some entry) := by
  unfold capture at h ⊢
  dsimp only at h ⊢
  split at h
  · next haccepts =>
      rw [if_pos haccepts]
      have := get?_evict h
      by_cases hid : id = input.id
      · subst hid
        rw [JsMap.get?_set_self] at this
        cases this
        exact .inl ⟨rfl, rfl, rfl⟩
      · rw [JsMap.get?_set_of_ne _ _ hid, JsMap.get?_delete_of_ne _ hid] at this
        exact .inr ⟨fun h => hid h.1, get?_prune this⟩
  · next haccepts =>
      rw [if_neg haccepts]
      exact .inr ⟨fun h => Bool.false_ne_true h.2, get?_prune h⟩

end RequestReplayStore

end StonePlus.Replay
