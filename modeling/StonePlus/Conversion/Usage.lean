import StonePlus.Streaming.AnthropicUsage
import StonePlus.Streaming.Encoder

/-!
# StonePlus.Conversion.Usage

Usage of buffered answers: of `convertResponse` and its converters the `usage` property of what
they return, which depends on the usage of the answer alone.

The buffered converters are compared with the stream parsers and encoders.  They agree unless
cached tokens are involved: most buffered converters copy the input count and drop the cached
ones, while the Anthropic count leaves cached tokens out and the others include them.
-/

namespace StonePlus.Conversion.Usage

open Streaming

/-! ## Converters -/

/-- `numberValue(usage?.key) ?? 0`. -/
def count (usage : Option JsonObject) (key : String) : JsNumber :=
  (numberValue (usage.bind (·.prop key))).getD (.ofInt 0)

/-- The names of the counts. -/
structure CountKeys where
  input : String
  output : String
  total : Option String

def chatKeys : CountKeys := ⟨"prompt_tokens", "completion_tokens", some "total_tokens"⟩

def responsesKeys : CountKeys := ⟨"input_tokens", "output_tokens", some "total_tokens"⟩

def anthropicKeys : CountKeys := ⟨"input_tokens", "output_tokens", none⟩

def geminiKeys : CountKeys := ⟨"promptTokenCount", "candidatesTokenCount", some "totalTokenCount"⟩

/-- Copy the two counts under other names. -/
def copyCounts (source target : CountKeys) (usage : Option JsonObject) : JsonObject :=
  let input := count usage source.input
  let output := count usage source.output
  omitUndefined ([(target.input, some (.number input)), (target.output, some (.number output))] ++
    (target.total.map fun total => (total, some (.number (input + output)))).toList)

def anthropicResponseToChat : Option JsonObject → JsonObject := copyCounts anthropicKeys chatKeys

def responsesResponseToChat : Option JsonObject → JsonObject := copyCounts responsesKeys chatKeys

def geminiResponseToChat : Option JsonObject → JsonObject := copyCounts geminiKeys chatKeys

def chatResponseToAnthropic : Option JsonObject → JsonObject := copyCounts chatKeys anthropicKeys

def responsesResponseToAnthropic : Option JsonObject → JsonObject :=
  copyCounts responsesKeys anthropicKeys

def geminiResponseToAnthropic : Option JsonObject → JsonObject := copyCounts geminiKeys anthropicKeys

def chatResponseToGemini : Option JsonObject → JsonObject := copyCounts chatKeys geminiKeys

def responsesResponseToGemini : Option JsonObject → JsonObject := copyCounts responsesKeys geminiKeys

def anthropicResponseToGemini : Option JsonObject → JsonObject := copyCounts anthropicKeys geminiKeys

def geminiResponseToResponses : Option JsonObject → JsonObject := copyCounts geminiKeys responsesKeys

/-- Here the counts are optional, and cached and reasoning tokens are kept. -/
def chatResponseToResponses (usage : Option JsonObject) : Option JsonObject :=
  let inputTokens := numberValue (usage.bind (·.prop "prompt_tokens"))
  let outputTokens := numberValue (usage.bind (·.prop "completion_tokens"))
  let cachedTokens := numberValue ((objectProp usage "prompt_tokens_details").bind
    (·.prop "cached_tokens"))
  let reasoningTokens := numberValue ((objectProp usage "completion_tokens_details").bind
    (·.prop "reasoning_tokens"))
  let responseUsage := omitUndefined
    [("input_tokens", inputTokens.map .number), ("output_tokens", outputTokens.map .number),
      ("total_tokens", ((numberValue (usage.bind (·.prop "total_tokens"))).or
        (sumDefined inputTokens outputTokens)).map .number),
      ("input_tokens_details", cachedTokens.map fun n => .object [(js "cached_tokens", .number n)]),
      ("output_tokens_details",
        reasoningTokens.map fun n => .object [(js "reasoning_tokens", .number n)])]
  if responseUsage = [] then none else some responseUsage

/-- Here the cached tokens are added to the input count. -/
def anthropicResponseToResponses (usage : Option JsonObject) : JsonObject :=
  let cachedInputTokens := count usage "cache_read_input_tokens"
  let inputTokens := count usage "input_tokens" + cachedInputTokens +
    count usage "cache_creation_input_tokens"
  let outputTokens := count usage "output_tokens"
  let reasoningTokens := numberValue ((objectProp usage "output_tokens_details").bind
    (·.prop "thinking_tokens"))
  omitUndefined
    [("input_tokens", some (.number inputTokens)), ("output_tokens", some (.number outputTokens)),
      ("total_tokens", some (.number (inputTokens + outputTokens))),
      ("input_tokens_details", if (.ofInt 0 < cachedInputTokens : Bool) then
        some (.object [(js "cached_tokens", .number cachedInputTokens)]) else none),
      ("output_tokens_details",
        reasoningTokens.map fun n => .object [(js "reasoning_tokens", .number n)])]

/-- The usage of an answer. -/
def responseUsage (protocol : Protocol) (body : JsonObject) : Option JsonObject :=
  match protocol with
  | .gemini => (objectValue (body.prop "usageMetadata")).or (objectValue (body.prop "usage_metadata"))
  | _ => objectValue (body.prop "usage")

/-- The usage of the answer that `convertResponse` returns. -/
def convertResponse (source target : Protocol) (body : JsonObject) : Option JsonObject :=
  let usage := responseUsage source body
  match source, target with
  | .anthropicMessages, .openaiChat => some (anthropicResponseToChat usage)
  | .openaiResponses, .openaiChat => some (responsesResponseToChat usage)
  | .gemini, .openaiChat => some (geminiResponseToChat usage)
  | .openaiChat, .anthropicMessages => some (chatResponseToAnthropic usage)
  | .openaiChat, .openaiResponses => chatResponseToResponses usage
  | .openaiChat, .gemini => some (chatResponseToGemini usage)
  | .openaiResponses, .anthropicMessages => some (responsesResponseToAnthropic usage)
  | .anthropicMessages, .openaiResponses => some (anthropicResponseToResponses usage)
  | .openaiResponses, .gemini => some (responsesResponseToGemini usage)
  | .gemini, .openaiResponses => some (geminiResponseToResponses usage)
  | .anthropicMessages, .gemini => some (anthropicResponseToGemini usage)
  | .gemini, .anthropicMessages => some (geminiResponseToAnthropic usage)
  | .openaiChat, .openaiChat | .openaiResponses, .openaiResponses
  | .anthropicMessages, .anthropicMessages | .gemini, .gemini => usage

/-! ## Streams -/

/-- What the parser of a protocol does with a usage object. -/
def parseUsage (protocol : Protocol) (usage : JsonObject) : Handler Unit :=
  match protocol with
  | .openaiChat => emitUsage (some usage) "prompt_tokens" "completion_tokens" (some "total_tokens")
  | .openaiResponses => emitUsage (some usage) "input_tokens" "output_tokens" (some "total_tokens")
  | .anthropicMessages => emitAnthropicUsage (some usage)
  | .gemini =>
    emitUsage (some usage) "promptTokenCount" "candidatesTokenCount" (some "totalTokenCount")

/-- What the encoder of a protocol writes of its counters. -/
def writeUsage (protocol : Protocol) (usage : CanonicalUsage) : JsonObject :=
  match protocol with
  | .openaiChat => openAiUsage usage
  | .openaiResponses => responsesUsage usage
  | .anthropicMessages => anthropicUsage usage
  | .gemini => geminiUsage usage

/-- The counters of an encoder after events. -/
def encodedUsage (events : List StreamEvent) : CanonicalUsage :=
  events.foldl (fun seen event => match event with
    | .usage usage => mergeUsage seen usage
    | _ => seen) {}

/-- The usage that parser and encoder deliver for a usage object. -/
def streamUsage (source target : Protocol) (usage : JsonObject) : JsonObject :=
  writeUsage target (encodedUsage (exec (parseUsage source usage) {}).1)

/-! ## What is delivered -/

/-- The counts a client reads; missing details count nothing. -/
structure Delivered where
  input : Option JsNumber
  output : Option JsNumber
  cached : JsNumber
  created : JsNumber
  deriving DecidableEq

def delivered (protocol : Protocol) (usage : JsonObject) : Delivered :=
  let details (key : String) := numberValue ((objectValue (usage.prop key)).bind
    (·.prop "cached_tokens"))
  let parts := objectValue (usage.prop "cache_creation")
  match protocol with
  | .openaiChat =>
    { input := numberValue (usage.prop "prompt_tokens")
      output := numberValue (usage.prop "completion_tokens")
      cached := (details "prompt_tokens_details").getD (.ofInt 0)
      created := .ofInt 0 }
  | .openaiResponses =>
    { input := numberValue (usage.prop "input_tokens")
      output := numberValue (usage.prop "output_tokens")
      cached := (details "input_tokens_details").getD (.ofInt 0)
      created := .ofInt 0 }
  | .anthropicMessages =>
    { input := numberValue (usage.prop "input_tokens")
      output := numberValue (usage.prop "output_tokens")
      cached := (numberValue (usage.prop "cache_read_input_tokens")).getD (.ofInt 0)
      created := ((numberValue (usage.prop "cache_creation_input_tokens")).or
        (sumOptional (numberValue (parts.bind (·.prop "ephemeral_5m_input_tokens")))
          (numberValue (parts.bind (·.prop "ephemeral_1h_input_tokens"))))).getD (.ofInt 0) }
  | .gemini =>
    { input := numberValue (usage.prop "promptTokenCount")
      output := numberValue (usage.prop "candidatesTokenCount")
      cached := (numberValue (usage.prop "cachedContentTokenCount")).getD (.ofInt 0)
      created := .ofInt 0 }

/-! ## Counts of an answer -/

/-- What the usage of an answer gives. -/
structure AnswerCounts where
  input : Nat
  output : Nat
  cached : Option Nat := none
  created : Option Nat := none
  fiveMinutes : Option Nat := none
  oneHour : Option Nat := none

namespace AnswerCounts

/-- The counts as an Anthropic report. -/
def report (c : AnswerCounts) (thinking : Option JsNumber) : TokenCounts where
  uncached := some c.input
  cacheRead := c.cached
  cacheCreation := c.created
  fiveMinutes := c.fiveMinutes
  oneHour := c.oneHour
  output := some c.output
  thinking := thinking

/-- The tokens written to the cache. -/
def creation (c : AnswerCounts) : Option Nat := c.created.or (sumCounts c.fiveMinutes c.oneHour)

/-- Sums of the counts are exact. -/
def Small (c : AnswerCounts) : Prop := (c.report none).Small

end AnswerCounts

/-- The usage object of a protocol gives these counts, in the protocol's own shape. -/
def Gives (source : Protocol) (usage : JsonObject) (c : AnswerCounts) : Prop :=
  let details (key : String) := numberValue ((objectValue (usage.prop key)).bind
    (·.prop "cached_tokens"))
  let parts := objectValue (usage.prop "cache_creation")
  let created := numberValue (usage.prop "cache_creation_input_tokens") = c.created.map .ofNat ∧
    numberValue (parts.bind (·.prop "ephemeral_5m_input_tokens")) = c.fiveMinutes.map .ofNat ∧
    numberValue (parts.bind (·.prop "ephemeral_1h_input_tokens")) = c.oneHour.map .ofNat
  match source with
  | .openaiChat =>
    numberValue (usage.prop "prompt_tokens") = some (.ofNat c.input) ∧
      numberValue (usage.prop "completion_tokens") = some (.ofNat c.output) ∧
      details "prompt_tokens_details" = c.cached.map .ofNat ∧
      objectValue (usage.prop "input_tokens_details") = none ∧ created
  | .openaiResponses =>
    numberValue (usage.prop "input_tokens") = some (.ofNat c.input) ∧
      numberValue (usage.prop "output_tokens") = some (.ofNat c.output) ∧
      details "input_tokens_details" = c.cached.map .ofNat ∧
      objectValue (usage.prop "prompt_tokens_details") = none ∧ created
  | .anthropicMessages => ∃ thinking, Reports usage (c.report thinking)
  | .gemini =>
    numberValue (usage.prop "promptTokenCount") = some (.ofNat c.input) ∧
      numberValue (usage.prop "candidatesTokenCount") = some (.ofNat c.output) ∧
      numberValue (usage.prop "cachedContentTokenCount") = c.cached.map .ofNat ∧
      objectValue (usage.prop "input_tokens_details") = none ∧
      objectValue (usage.prop "prompt_tokens_details") = none ∧ created

/-- When a pair of protocols treats cached tokens alike, buffered and streamed. -/
def CachesAgree (source target : Protocol) (c : AnswerCounts) : Prop :=
  match source, target with
  | .anthropicMessages, .openaiChat | .anthropicMessages, .gemini
  | .openaiChat, .anthropicMessages | .openaiResponses, .anthropicMessages =>
    c.cached.getD 0 = 0 ∧ c.creation.getD 0 = 0
  | .gemini, .anthropicMessages => c.creation.getD 0 = 0
  | .openaiResponses, .openaiChat | .gemini, .gemini => c.cached.getD 0 = 0
  | .anthropicMessages, .openaiResponses =>
    c.created = none → c.fiveMinutes.getD 0 + c.oneHour.getD 0 = 0
  | _, _ => True

/-! ## What a stream delivers -/

theorem usageSignature_ne_nil (usage : CanonicalUsage) : usageSignature usage ≠ [] := by
  unfold usageSignature signature
  simp [Json.join, List.intercalate, js]

theorem encodedUsage_emitParsedUsage (parsed : CanonicalUsage) :
    encodedUsage (exec (emitParsedUsage parsed) {}).1 = mergeUsage {} (mergeUsage {} parsed) := by
  by_cases h : parsed = {}
  · subst h
    rfl
  · have hexec : (exec (emitParsedUsage parsed) {}).1 = [.usage (mergeUsage {} parsed)] := by
      have hnew : usageSignature (mergeUsage {} parsed) ≠ [] := usageSignature_ne_nil _
      unfold emitParsedUsage
      rw [if_neg h]
      simp [exec, bind, Lib.Effect.modify, Lib.Effect.get, Lib.Effect.emit, hnew]
    rw [hexec]
    rfl

/-- The counters are these counts. -/
structure Counts (usage : CanonicalUsage) (c : AnswerCounts) : Prop where
  input : usage.inputTokens = some (.ofNat c.input)
  output : usage.outputTokens = some (.ofNat c.output)
  cached : usage.cachedInputTokens = c.cached.map .ofNat
  created : usage.cacheCreationInputTokens = c.created.map .ofNat
  fiveMinutes : usage.cacheCreation5mInputTokens = c.fiveMinutes.map .ofNat
  oneHour : usage.cacheCreation1hInputTokens = c.oneHour.map .ofNat

/-- The counts of the protocol as the parser keeps them: the Anthropic input count is summed up,
and the Gemini parser reads no cached count. -/
def parsedCounts (source : Protocol) (c : AnswerCounts) : AnswerCounts :=
  match source with
  | .anthropicMessages =>
    { c with
      input := c.input + c.cached.getD 0 + c.creation.getD 0
      created := c.creation }
  | .gemini => { c with cached := none }
  | _ => c

theorem numberValue_some (h : n.isFinite = true) : numberValue (some (.number n)) = some n := by
  rw [numberValue, if_pos h]

theorem isFinite_of_numberValue (h : numberValue value = some n) : n.isFinite = true := by
  unfold numberValue at h
  split at h
  · split at h
    · next hfinite => rwa [← Option.some.inj h]
    · simp at h
  · simp at h

theorem counts_parsed (h : Gives source usage c) (hsmall : c.Small) :
    Counts (encodedUsage (exec (parseUsage source usage) {}).1) (parsedCounts source c) := by
  cases source with
  | openaiChat =>
      obtain ⟨hinput, houtput, hcached, hother, hcreated, hfive, hone⟩ := h
      unfold parseUsage emitUsage
      rw [encodedUsage_emitParsedUsage]
      constructor <;> simp [mergeUsage, parsedCounts, *]
  | openaiResponses =>
      obtain ⟨hinput, houtput, hcached, hother, hcreated, hfive, hone⟩ := h
      unfold parseUsage emitUsage
      rw [encodedUsage_emitParsedUsage]
      constructor <;> simp [mergeUsage, parsedCounts, *]
  | anthropicMessages =>
      obtain ⟨thinking, hreports⟩ := h
      have hreport : (c.report thinking).Small := { hsmall with }
      unfold parseUsage
      rw [emitAnthropicUsage_eq, encodedUsage_emitParsedUsage,
        parsedAnthropicUsage_of_reports hreports hreport]
      constructor
      · simp [mergeUsage, parsedCounts, TokenCounts.usage, TokenCounts.input, sumCounts,
          AnswerCounts.report, AnswerCounts.creation, TokenCounts.creation]
      all_goals simp [mergeUsage, parsedCounts, TokenCounts.usage, AnswerCounts.report,
        AnswerCounts.creation, TokenCounts.creation]
  | gemini =>
      obtain ⟨hinput, houtput, hcached, hinputDetails, hpromptDetails, hcreated, hfive, hone⟩ := h
      unfold parseUsage emitUsage
      rw [encodedUsage_emitParsedUsage]
      constructor <;> simp [mergeUsage, parsedCounts, numberValue.eq_2, *]

/-- Subtraction that stops at zero. -/
theorem atLeastZero_sub (ha : a < 2 ^ 53) (hb : b + c < 2 ^ 53) :
    atLeastZero (.ofNat a - .ofNat b - .ofNat c) = .ofNat (a - b - c) := by
  have hfirst := @JsNumber.ofInt_sub a b (by omega) (by omega) (by omega)
  have hsecond := @JsNumber.ofInt_sub (a - b) c (by omega) (by omega) (by omega)
  rw [JsNumber.ofNat, JsNumber.ofNat, JsNumber.ofNat, hfirst, hsecond]
  unfold atLeastZero
  rw [JsNumber.isNaN_ofInt (by omega), if_neg Bool.false_ne_true]
  split
  · next hneg =>
    have := (JsNumber.ofInt_lt_zero (by omega)).mp hneg
    rw [JsNumber.ofNat]
    congr 1
    omega
  · next hpos =>
    have := mt (@JsNumber.ofInt_lt_zero (a - b - c) (by omega)).mpr hpos
    rw [JsNumber.ofNat]
    congr 1
    omega

/-- What a client reads of the counts. -/
def AnswerCounts.delivered (target : Protocol) (c : AnswerCounts) : Delivered :=
  match target with
  | .openaiChat | .openaiResponses =>
    ⟨some (.ofNat c.input), some (.ofNat c.output), .ofNat (c.cached.getD 0), .ofNat 0⟩
  | .anthropicMessages =>
    ⟨some (.ofNat (c.input - c.cached.getD 0 - c.creation.getD 0)), some (.ofNat c.output),
      .ofNat (c.cached.getD 0), .ofNat (c.creation.getD 0)⟩
  | .gemini => ⟨some (.ofNat c.input), some (.ofNat c.output), .ofNat 0, .ofNat 0⟩

theorem numberValue_map {n : Option Nat} (h : n.getD 0 < 2 ^ 53) :
    numberValue ((n.map JsNumber.ofNat).map .number) = n.map .ofNat := by
  cases n with
  | none => rfl
  | some n => exact numberValue_some (isFinite_ofNat h)

theorem details_cached {n : Option Nat} (h : n.getD 0 < 2 ^ 53) :
    (numberValue ((objectValue ((n.map JsNumber.ofNat).map fun n =>
      .object [(js "cached_tokens", .number n)])).bind (·.prop "cached_tokens"))).getD (.ofInt 0) =
      .ofNat (n.getD 0) := by
  cases n with
  | none => rfl
  | some n =>
      have hread : numberValue (some (.number (.ofNat n))) = some (.ofNat n) :=
        numberValue_some (isFinite_ofNat h)
      exact congrArg (fun value => value.getD (.ofInt 0)) hread

/-- The parts of the created tokens, as they are written. -/
theorem details_created {five one : Option Nat} (hfive : five.getD 0 < 2 ^ 53)
    (hone : one.getD 0 < 2 ^ 53) :
    let parts := objectValue (if (five.map JsNumber.ofNat).isNone && (one.map JsNumber.ofNat).isNone
      then none
      else some (.object (omitUndefined
        [("ephemeral_5m_input_tokens", (five.map JsNumber.ofNat).map .number),
          ("ephemeral_1h_input_tokens", (one.map JsNumber.ofNat).map .number)])))
    numberValue (parts.bind (·.prop "ephemeral_5m_input_tokens")) = five.map .ofNat ∧
      numberValue (parts.bind (·.prop "ephemeral_1h_input_tokens")) = one.map .ofNat := by
  by_cases h : ((five.map JsNumber.ofNat).isNone && (one.map JsNumber.ofNat).isNone) = true
  · have hnone : five = none ∧ one = none := by simpa using h
    rw [hnone.1, hnone.2]
    exact ⟨rfl, rfl⟩
  · rw [if_neg h]
    simp +decide only [objectValue, Option.bind_some, prop_omitUndefined_cons,
      prop_omitUndefined_nil, if_true, if_false, Option.or_none, numberValue_map hfive,
      numberValue_map hone, and_self]

theorem delivered_writeUsage (h : Counts usage c) (hinput : c.input < 2 ^ 53)
    (houtput : (JsNumber.ofNat c.output).isFinite)
    (hcached : c.cached.getD 0 + c.creation.getD 0 < 2 ^ 53)
    (hcreated : c.created.getD 0 < 2 ^ 53)
    (hparts : c.fiveMinutes.getD 0 + c.oneHour.getD 0 < 2 ^ 53) :
    delivered target (writeUsage target usage) = c.delivered target := by
  have hread := numberValue_some (isFinite_ofNat hinput)
  have hwritten := numberValue_some houtput
  have hsafe : c.cached.getD 0 < 2 ^ 53 := by omega
  cases target with
  | openaiChat =>
      unfold delivered writeUsage openAiUsage
      simp +decide only [prop_omitUndefined_cons, prop_omitUndefined_nil, if_true, if_false,
        Option.or_none, h.input, h.output, h.cached, Option.map_some, hread, hwritten,
        details_cached hsafe]
      rfl
  | openaiResponses =>
      unfold delivered writeUsage responsesUsage
      simp +decide only [prop_omitUndefined_cons, prop_omitUndefined_nil, if_true, if_false,
        Option.or_none, h.input, h.output, h.cached, Option.map_some, hread, hwritten,
        details_cached hsafe]
      rfl
  | anthropicMessages =>
      obtain ⟨hfive, hone⟩ := @details_created c.fiveMinutes c.oneHour (by omega) (by omega)
      have hresolved : (c.created.map JsNumber.ofNat).or
          (sumOptional (c.fiveMinutes.map .ofNat) (c.oneHour.map .ofNat)) =
            c.creation.map .ofNat := by
        rw [← map_sumCounts hparts, AnswerCounts.creation, Option.map_or]
      unfold delivered writeUsage anthropicUsage
      simp +decide only [prop_omitUndefined_cons, prop_omitUndefined_nil, if_true, if_false,
        Option.or_none, h.input, h.output, h.cached, h.created, h.fiveMinutes, h.oneHour,
        Option.map_some, hwritten, hfive, hone, hresolved, numberValue_map hsafe, getD_map_ofNat,
        numberValue_map hcreated, atLeastZero_sub hinput hcached]
      rw [numberValue_some (isFinite_ofNat (by omega))]
      rfl
  | gemini =>
      unfold delivered writeUsage geminiUsage
      simp +decide only [prop_omitUndefined_cons, prop_omitUndefined_nil, if_true, if_false,
        Option.or_none, h.input, h.output, Option.map_some, hread, hwritten]
      rfl

/-! ## What a buffered answer delivers -/

/-- The counts that the converters hand on. -/
def bufferedCounts (source target : Protocol) (c : AnswerCounts) : Delivered :=
  let plain : Delivered := ⟨some (.ofNat c.input), some (.ofNat c.output), .ofNat 0, .ofNat 0⟩
  match source, target with
  | .openaiChat, .openaiResponses | .openaiChat, .openaiChat | .openaiResponses, .openaiResponses
  | .gemini, .gemini => { plain with cached := .ofNat (c.cached.getD 0) }
  | .anthropicMessages, .openaiResponses =>
    { plain with
      input := some (.ofNat (c.input + c.cached.getD 0 + c.created.getD 0))
      cached := .ofNat (c.cached.getD 0) }
  | .anthropicMessages, .anthropicMessages =>
    { plain with
      cached := .ofNat (c.cached.getD 0)
      created := .ofNat (c.creation.getD 0) }
  | _, _ => plain

/-- The names of the counts of a protocol. -/
def protocolKeys : Protocol → CountKeys
  | .openaiChat => chatKeys
  | .openaiResponses => responsesKeys
  | .anthropicMessages => anthropicKeys
  | .gemini => geminiKeys

theorem counts_of_gives (h : Gives source usage c) :
    numberValue (usage.prop (protocolKeys source).input) = some (.ofNat c.input) ∧
      numberValue (usage.prop (protocolKeys source).output) = some (.ofNat c.output) := by
  cases source with
  | openaiChat => exact ⟨h.1, h.2.1⟩
  | openaiResponses => exact ⟨h.1, h.2.1⟩
  | anthropicMessages =>
      obtain ⟨thinking, hreports⟩ := h
      exact ⟨hreports.uncached, hreports.output⟩
  | gemini => exact ⟨h.1, h.2.1⟩

/-- Two counts under other names and nothing else. -/
theorem delivered_copyCounts (hinput : numberValue (usage.prop source.input) = some input)
    (houtput : numberValue (usage.prop source.output) = some output) :
    delivered .openaiChat (copyCounts source chatKeys (some usage)) =
        ⟨some input, some output, .ofNat 0, .ofNat 0⟩ ∧
      delivered .openaiResponses (copyCounts source responsesKeys (some usage)) =
        ⟨some input, some output, .ofNat 0, .ofNat 0⟩ ∧
      delivered .anthropicMessages (copyCounts source anthropicKeys (some usage)) =
        ⟨some input, some output, .ofNat 0, .ofNat 0⟩ ∧
      delivered .gemini (copyCounts source geminiKeys (some usage)) =
        ⟨some input, some output, .ofNat 0, .ofNat 0⟩ := by
  have hin := numberValue_some (isFinite_of_numberValue hinput)
  have hout := numberValue_some (isFinite_of_numberValue houtput)
  have hcounts : count (some usage) source.input = input ∧ count (some usage) source.output = output := by
    simp [count, hinput, houtput]
  unfold delivered copyCounts
  simp +decide only [hcounts.1, hcounts.2, chatKeys, responsesKeys, anthropicKeys, geminiKeys,
    Option.map_some, Option.map_none, Option.toList_some, Option.toList_none, List.append_nil,
    List.cons_append, List.nil_append, prop_omitUndefined_cons, prop_omitUndefined_nil, if_true,
    if_false, Option.or_none, Option.some_or, hin, hout]
  exact ⟨rfl, rfl, rfl, rfl⟩

theorem delivered_chatResponseToResponses (h : Gives .openaiChat usage c)
    (hcached : c.cached.getD 0 < 2 ^ 53) :
    (chatResponseToResponses (some usage)).map (delivered .openaiResponses) =
      some (bufferedCounts .openaiChat .openaiResponses c) := by
  obtain ⟨hinput, houtput, hdetails, -⟩ := h
  have hin := numberValue_some (isFinite_of_numberValue hinput)
  have hout := numberValue_some (isFinite_of_numberValue houtput)
  unfold chatResponseToResponses
  simp only [objectProp, Option.bind_some, hinput, houtput, hdetails, Option.map_some]
  rw [if_neg (by simp [omitUndefined]), Option.map_some]
  congr 1
  unfold delivered
  simp +decide only [prop_omitUndefined_cons, prop_omitUndefined_nil, if_true, if_false,
    Option.or_none, Option.some_or, hin, hout, details_cached hcached]
  rfl

theorem count_anthropic {n : Option Nat} (h : numberValue (usage.prop key) = n.map .ofNat) :
    count (some usage) key = .ofNat (n.getD 0) := by
  rw [count, Option.bind_some, h, getD_map_ofNat]

theorem delivered_anthropicResponseToResponses (h : Gives .anthropicMessages usage c)
    (hsmall : c.Small) : delivered .openaiResponses (anthropicResponseToResponses (some usage)) =
      bufferedCounts .anthropicMessages .openaiResponses c := by
  obtain ⟨thinking, hreports⟩ := h
  have hinput : c.input < 2 ^ 51 := hsmall.uncached
  have hcached : c.cached.getD 0 < 2 ^ 51 := hsmall.cacheRead
  have hcreated : c.created.getD 0 < 2 ^ 51 := hsmall.cacheCreation
  have hout := numberValue_some (isFinite_of_numberValue hreports.output)
  have houtput : count (some usage) "output_tokens" = .ofNat c.output :=
    count_anthropic hreports.output
  have huncached : count (some usage) "input_tokens" = .ofNat c.input :=
    count_anthropic hreports.uncached
  have hread : count (some usage) "cache_read_input_tokens" = .ofNat (c.cached.getD 0) :=
    count_anthropic hreports.cacheRead
  have hcreation : count (some usage) "cache_creation_input_tokens" = .ofNat (c.created.getD 0) :=
    count_anthropic hreports.cacheCreation
  have hsum := numberValue_some
    (@isFinite_ofNat (c.input + c.cached.getD 0 + c.created.getD 0) (by omega))
  have hfinite := numberValue_some (@isFinite_ofNat (c.cached.getD 0) (by omega))
  have hdetails : (numberValue ((objectValue (if (.ofInt 0 < JsNumber.ofNat (c.cached.getD 0) : Bool)
      then some (.object [(js "cached_tokens", .number (.ofNat (c.cached.getD 0)))])
      else none)).bind (·.prop "cached_tokens"))).getD (.ofInt 0) = .ofNat (c.cached.getD 0) := by
    have hpositive := @JsNumber.zero_lt_ofInt (c.cached.getD 0) (by omega)
    split
    · exact congrArg (fun value => value.getD (.ofInt 0)) hfinite
    · next hnot =>
      have hzero : c.cached.getD 0 = 0 := by
        have := mt hpositive.mpr fun hlt => hnot (decide_eq_true hlt)
        omega
      rw [hzero]
      rfl
  unfold delivered anthropicResponseToResponses
  simp +decide only [houtput, huncached, hread, hcreation, prop_omitUndefined_cons,
    prop_omitUndefined_nil, if_true, if_false, Option.or_none, Option.some_or, hout, hdetails,
    ofNat_add (show c.input + c.cached.getD 0 < 2 ^ 53 by omega),
    ofNat_add (show c.input + c.cached.getD 0 + c.created.getD 0 < 2 ^ 53 by omega), hsum]
  rfl

theorem delivered_convertResponse (hbody : responseUsage source body = some usage)
    (h : Gives source usage c) (hsmall : c.Small) :
    (convertResponse source target body).map (delivered target) =
      some (bufferedCounts source target c) := by
  have hinput : c.input < 2 ^ 51 := hsmall.uncached
  have hcached : c.cached.getD 0 < 2 ^ 51 := hsmall.cacheRead
  obtain ⟨hin, hout⟩ := counts_of_gives h
  obtain ⟨hchat, hresponses, hanthropic, hgemini⟩ := delivered_copyCounts hin hout
  unfold convertResponse
  rw [hbody]
  cases source <;> cases target
  case openaiChat.openaiResponses =>
    exact delivered_chatResponseToResponses h (by omega)
  case anthropicMessages.openaiResponses =>
    exact congrArg some (delivered_anthropicResponseToResponses h hsmall)
  case openaiChat.openaiChat =>
    have hdetails : numberValue ((objectValue (usage.prop "prompt_tokens_details")).bind
      (·.prop "cached_tokens")) = c.cached.map .ofNat := h.2.2.1
    simp only [protocolKeys, chatKeys] at hin hout
    simp only [Option.map_some, delivered, hin, hout]
    rw [hdetails, getD_map_ofNat]
    rfl
  case openaiResponses.openaiResponses =>
    have hdetails : numberValue ((objectValue (usage.prop "input_tokens_details")).bind
      (·.prop "cached_tokens")) = c.cached.map .ofNat := h.2.2.1
    simp only [protocolKeys, responsesKeys] at hin hout
    simp only [Option.map_some, delivered, hin, hout]
    rw [hdetails, getD_map_ofNat]
    rfl
  case anthropicMessages.anthropicMessages =>
    obtain ⟨thinking, hreports⟩ := h
    have hfive : c.fiveMinutes.getD 0 < 2 ^ 51 := hsmall.fiveMinutes
    have hone : c.oneHour.getD 0 < 2 ^ 51 := hsmall.oneHour
    have hresolved : (c.created.map JsNumber.ofNat).or
        (sumOptional (c.fiveMinutes.map .ofNat) (c.oneHour.map .ofNat)) =
          c.creation.map .ofNat := by
      rw [← map_sumCounts (by omega), AnswerCounts.creation, Option.map_or]
    have hreport := hreports.cacheCreation
    simp only [AnswerCounts.report] at hreport
    simp only [protocolKeys, anthropicKeys] at hin hout
    simp only [Option.map_some, delivered, hin, hout, hreports.cacheRead, hreport,
      hreports.fiveMinutes, hreports.oneHour, AnswerCounts.report, hresolved, getD_map_ofNat]
    rfl
  case gemini.gemini =>
    have hcount := h.2.2.1
    simp only [protocolKeys, geminiKeys] at hin hout
    simp only [Option.map_some, delivered, hin, hout]
    rw [hcount, getD_map_ofNat]
    rfl
  case anthropicMessages.openaiChat => exact congrArg some hchat
  case openaiResponses.openaiChat => exact congrArg some hchat
  case gemini.openaiChat => exact congrArg some hchat
  case openaiChat.anthropicMessages => exact congrArg some hanthropic
  case openaiResponses.anthropicMessages => exact congrArg some hanthropic
  case gemini.anthropicMessages => exact congrArg some hanthropic
  case openaiChat.gemini => exact congrArg some hgemini
  case openaiResponses.gemini => exact congrArg some hgemini
  case anthropicMessages.gemini => exact congrArg some hgemini
  case gemini.openaiResponses => exact congrArg some hresponses

/-! ## Agreement -/

theorem creation_parsedCounts (source : Protocol) (c : AnswerCounts) :
    (parsedCounts source c).creation = c.creation := by
  cases source with
  | anthropicMessages =>
      unfold parsedCounts AnswerCounts.creation
      cases c.created with
      | some n => rfl
      | none => cases sumCounts c.fiveMinutes c.oneHour <;> simp
  | _ => rfl

theorem delivered_streamUsage (h : Gives source usage c) (hsmall : c.Small) :
    delivered target (streamUsage source target usage) =
      (parsedCounts source c).delivered target := by
  have hinput : c.input < 2 ^ 51 := hsmall.uncached
  have hcached : c.cached.getD 0 < 2 ^ 51 := hsmall.cacheRead
  have hcreated : c.created.getD 0 < 2 ^ 51 := hsmall.cacheCreation
  have hfive : c.fiveMinutes.getD 0 < 2 ^ 51 := hsmall.fiveMinutes
  have hone : c.oneHour.getD 0 < 2 ^ 51 := hsmall.oneHour
  have hcreation : c.creation.getD 0 < 2 ^ 52 := TokenCounts.Small.creation hsmall
  have houtput := isFinite_of_numberValue (counts_of_gives h).2
  refine delivered_writeUsage (counts_parsed h hsmall) ?_ ?_ ?_ ?_ ?_
  · cases source <;> simp only [parsedCounts] <;> omega
  · cases source <;> exact houtput
  · rw [creation_parsedCounts]
    cases source <;> simp only [parsedCounts, Option.getD_none] <;> omega
  · cases source <;> simp only [parsedCounts] <;> omega
  · cases source <;> simp only [parsedCounts] <;> omega

/-- Buffered and streamed answers deliver the same counts exactly when the pair of protocols
treats the cached tokens of the answer alike. -/
theorem convertResponse_usage_iff (source target : Protocol) (body usage : JsonObject)
    (c : AnswerCounts) (hbody : responseUsage source body = some usage) (h : Gives source usage c)
    (hsmall : c.Small) :
    (convertResponse source target body).map (delivered target) =
        some (delivered target (streamUsage source target usage)) ↔ CachesAgree source target c := by
  have hinput : c.input < 2 ^ 51 := hsmall.uncached
  have hcached : c.cached.getD 0 < 2 ^ 51 := hsmall.cacheRead
  have hcreated : c.created.getD 0 < 2 ^ 51 := hsmall.cacheCreation
  have hcreation : c.creation.getD 0 < 2 ^ 52 := TokenCounts.Small.creation hsmall
  have hparsed := creation_parsedCounts source c
  have hnumber : ∀ {a b : Nat}, a < 2 ^ 53 → b < 2 ^ 53 →
      (JsNumber.ofNat a = JsNumber.ofNat b ↔ a = b) := fun ha hb =>
    ⟨ofNat_injective ha hb, fun heq => by rw [heq]⟩
  rw [delivered_convertResponse hbody h hsmall, delivered_streamUsage h hsmall,
    Option.some.injEq]
  have hreported : (c.created = none → c.fiveMinutes.getD 0 + c.oneHour.getD 0 = 0) ↔
      c.created.getD 0 = c.creation.getD 0 := by
    unfold AnswerCounts.creation
    cases c.created with
    | some n => simp
    | none =>
        rw [Option.none_or, getD_sumCounts, Option.getD_none]
        simp only [true_imp_iff]
        omega
  have hcovered : c.input + c.cached.getD 0 + c.creation.getD 0 - c.cached.getD 0 -
      c.creation.getD 0 = c.input := by omega
  cases source <;> cases target <;>
    simp only [bufferedCounts, AnswerCounts.delivered, CachesAgree, hparsed] <;>
    simp only [parsedCounts, Delivered.mk.injEq, Option.some.injEq, and_true, true_and,
      Option.getD_none, hreported, hcovered] <;>
    simp (disch := omega) only [hnumber] <;> omega

/-- A Chat answer with cached tokens. -/
def cachedAnswer : JsonObject :=
  [(js "usage", .object [(js "prompt_tokens", .number (.ofNat 40)),
    (js "completion_tokens", .number (.ofNat 5)),
    (js "prompt_tokens_details", .object [(js "cached_tokens", .number (.ofNat 30))])])]

/-- The usage of that answer. -/
def cachedUsage : JsonObject :=
  [(js "prompt_tokens", .number (.ofNat 40)), (js "completion_tokens", .number (.ofNat 5)),
    (js "prompt_tokens_details", .object [(js "cached_tokens", .number (.ofNat 30))])]

/-- A Responses client is told the cached tokens both ways. -/
theorem convertResponse_usage_responses :
    (convertResponse .openaiChat .openaiResponses cachedAnswer).map (delivered .openaiResponses) =
      some (delivered .openaiResponses (streamUsage .openaiChat .openaiResponses cachedUsage)) :=
  (convertResponse_usage_iff .openaiChat .openaiResponses cachedAnswer cachedUsage
    { input := 40, output := 5, cached := some 30 } (by decide +kernel)
    ⟨by decide +kernel, by decide +kernel, by decide +kernel, by decide +kernel, by decide +kernel,
      by decide +kernel, by decide +kernel⟩
    (by constructor <;> decide)).mpr trivial

/-- An Anthropic client is told that all forty tokens are uncached, if the answer is buffered. -/
theorem convertResponse_usage_fails :
    responseUsage .openaiChat cachedAnswer = some cachedUsage ∧
      Gives .openaiChat cachedUsage { input := 40, output := 5, cached := some 30 } ∧
      (convertResponse .openaiChat .anthropicMessages cachedAnswer).map
          (delivered .anthropicMessages) ≠
        some (delivered .anthropicMessages
          (streamUsage .openaiChat .anthropicMessages cachedUsage)) :=
  ⟨by decide +kernel,
    ⟨by decide +kernel, by decide +kernel, by decide +kernel, by decide +kernel, by decide +kernel,
      by decide +kernel, by decide +kernel⟩,
    by decide +kernel⟩

end StonePlus.Conversion.Usage