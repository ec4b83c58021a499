import StonePlus.Js.SafeInteger
import StonePlus.Streaming.Encoders
import StonePlus.Streaming.Parser

/-!
# StonePlus.Streaming.AnthropicUsage

Usage of an Anthropic stream, which comes in partial reports.

The parts of a report are merged one by one, but `inputTokens` is the sum of the parts that the
last report with an input part gives.  The two agree exactly when no part that this report leaves
out counts.
-/

namespace StonePlus.Streaming

open Lib.Effect

/-! ## The last value of a field -/

section

variable {α β γ : Type}

/-- The last value that is there. -/
def lastOf (f : α → Option β) (as : List α) : Option β := (as.filterMap f).getLast?

/-- The last item that has a value. -/
def lastWith (f : α → Option β) (as : List α) : Option α :=
  (as.filter fun a => (f a).isSome).getLast?

theorem lastOf_append (f : α → Option β) (as : List α) (a : α) :
    lastOf f (as ++ [a]) = (f a).or (lastOf f as) := by
  unfold lastOf
  rw [List.filterMap_append]
  cases h : f a <;> simp [h]

theorem lastWith_append (f : α → Option β) (as : List α) (a : α) :
    lastWith f (as ++ [a]) = if (f a).isSome then some a else lastWith f as := by
  unfold lastWith
  rw [List.filter_append]
  by_cases h : (f a).isSome <;> simp [h]

theorem lastOf_eq_bind (f : α → Option β) (as : List α) : lastOf f as = (lastWith f as).bind f := by
  induction as using List.reverseRecOn with
  | nil => rfl
  | append_singleton as a ih =>
      rw [lastOf_append, lastWith_append, ih]
      cases h : f a <;> simp [h]

/-- A field that comes with another is last reported with it, if at all. -/
theorem lastOf_of_lastWith {f : α → Option β} {g : α → Option γ} (hfg : ∀ a, f a = none → g a = none)
    {as : List α} {a : α} (h : lastWith f as = some a) {c : γ} (hc : g a = some c) :
    lastOf g as = some c := by
  induction as using List.reverseRecOn with
  | nil => simp [lastWith] at h
  | append_singleton as b ih =>
      rw [lastWith_append] at h
      rw [lastOf_append]
      split at h
      · rw [Option.some.inj h, hc]
        rfl
      · next hnone =>
        rw [hfg b (by simpa using hnone)]
        exact ih h

theorem lastOf_eq_none {f : α → Option β} {g : α → Option γ} (hfg : ∀ a, f a = none → g a = none)
    {as : List α} (h : lastWith f as = none) : lastOf g as = none := by
  induction as using List.reverseRecOn with
  | nil => rfl
  | append_singleton as b ih =>
      rw [lastWith_append] at h
      rw [lastOf_append]
      split at h
      · simp at h
      · next hnone =>
        rw [hfg b (by simpa using hnone), ih h]
        rfl

end

/-! ## Reports -/

/-- What a usage object reports. -/
structure TokenCounts where
  uncached : Option Nat := none
  cacheRead : Option Nat := none
  cacheCreation : Option Nat := none
  fiveMinutes : Option Nat := none
  oneHour : Option Nat := none
  output : Option Nat := none
  thinking : Option JsNumber := none

/-- The sum of two counts, of which one may be missing. -/
def sumCounts (a b : Option Nat) : Option Nat :=
  if a.isNone && b.isNone then none else some (a.getD 0 + b.getD 0)

theorem getD_sumCounts (a b : Option Nat) : (sumCounts a b).getD 0 = a.getD 0 + b.getD 0 := by
  cases a <;> cases b <;> rfl

theorem sumCounts_eq_none : sumCounts a b = none ↔ a = none ∧ b = none := by
  cases a <;> cases b <;> simp [sumCounts]

namespace TokenCounts

/-- The tokens written to the cache: their count, or else the sum of its two parts. -/
def creation (c : TokenCounts) : Option Nat :=
  c.cacheCreation.or (sumCounts c.fiveMinutes c.oneHour)

/-- All tokens that were read. -/
def input (c : TokenCounts) : Option Nat :=
  sumCounts (sumCounts c.uncached c.cacheRead) c.creation

/-- The input counts are small enough that sums of them are exact. -/
structure Small (c : TokenCounts) : Prop where
  uncached : c.uncached.getD 0 < 2 ^ 51
  cacheRead : c.cacheRead.getD 0 < 2 ^ 51
  cacheCreation : c.cacheCreation.getD 0 < 2 ^ 51
  fiveMinutes : c.fiveMinutes.getD 0 < 2 ^ 51
  oneHour : c.oneHour.getD 0 < 2 ^ 51

/-- The last value of every field. -/
def last (reports : List TokenCounts) : TokenCounts where
  uncached := lastOf uncached reports
  cacheRead := lastOf cacheRead reports
  cacheCreation := lastOf cacheCreation reports
  fiveMinutes := lastOf fiveMinutes reports
  oneHour := lastOf oneHour reports
  output := lastOf output reports
  thinking := lastOf thinking reports

end TokenCounts

/-- A usage object reports these counts. -/
structure Reports (usage : JsonObject) (c : TokenCounts) : Prop where
  uncached : numberValue (usage.prop "input_tokens") = c.uncached.map .ofNat
  cacheRead : numberValue (usage.prop "cache_read_input_tokens") = c.cacheRead.map .ofNat
  cacheCreation :
    numberValue (usage.prop "cache_creation_input_tokens") = c.cacheCreation.map .ofNat
  fiveMinutes : numberValue ((objectValue (usage.prop "cache_creation")).bind
    (·.prop "ephemeral_5m_input_tokens")) = c.fiveMinutes.map .ofNat
  oneHour : numberValue ((objectValue (usage.prop "cache_creation")).bind
    (·.prop "ephemeral_1h_input_tokens")) = c.oneHour.map .ofNat
  output : numberValue (usage.prop "output_tokens") = c.output.map .ofNat
  thinking : numberValue ((objectValue (usage.prop "output_tokens_details")).bind
    (·.prop "thinking_tokens")) = c.thinking

/-! ## Counters of a stream -/

/-- The usage object of a payload. -/
def usageObject (payload : Option JsString × Json) : Option JsonObject :=
  match objectValue (some payload.2) with
  | none => none
  | some object =>
    let type := stringValue (object.prop "type") (payload.1.getD [])
    if type = js "message_start" then
      objectValue (((objectValue (object.prop "message")).getD []).prop "usage")
    else if type = js "message_delta" then objectValue (object.prop "usage")
    else none

/-- The counters of the parser after payloads. -/
def countersAfter (options : ParserOptions) (payloads : List (Option JsString × Json)) :
    CanonicalUsage :=
  (execAll (payloads.map fun p => handlePayload .anthropicMessages options p.1 p.2) {}).2.usage

/-- What `emitAnthropicUsage` reads in a usage object. -/
def parsedAnthropicUsage (usage : JsonObject) : CanonicalUsage :=
  let finite (n : Option JsNumber) : Option JsNumber := n.filter fun n => n.isFinite
  let uncached := numberValue (usage.prop "input_tokens")
  let cacheRead := numberValue (usage.prop "cache_read_input_tokens")
  let details := objectValue (usage.prop "cache_creation")
  let cacheCreation5m := numberValue (details.bind (·.prop "ephemeral_5m_input_tokens"))
  let cacheCreation1h := numberValue (details.bind (·.prop "ephemeral_1h_input_tokens"))
  let cacheCreation := (numberValue (usage.prop "cache_creation_input_tokens")).or
    (sumOptional cacheCreation5m cacheCreation1h)
  let inputParts := [uncached, cacheRead, cacheCreation].filterMap id
  let inputTokens :=
    if inputParts = [] then none else some (inputParts.foldl (· + ·) (.ofInt 0))
  { inputTokens := finite inputTokens
    outputTokens := numberValue (usage.prop "output_tokens")
    totalTokens := none
    cachedInputTokens := cacheRead
    cacheCreationInputTokens := finite cacheCreation
    cacheCreation5mInputTokens := cacheCreation5m
    cacheCreation1hInputTokens := cacheCreation1h
    reasoningTokens := numberValue
      ((objectValue (usage.prop "output_tokens_details")).bind (·.prop "thinking_tokens")) }

theorem emitAnthropicUsage_eq (usage : JsonObject) :
    emitAnthropicUsage (some usage) = emitParsedUsage (parsedAnthropicUsage usage) := rfl

/-- The counters after an object. -/
def noteUsage (seen : CanonicalUsage) (usage : JsonObject) : CanonicalUsage :=
  if parsedAnthropicUsage usage = {} then seen else mergeUsage seen (parsedAnthropicUsage usage)

/-- A method that leaves the counters alone. -/
abbrev Uncounted {α : Type} (m : Handler α) : Prop :=
  Keeps (fun s : ParserState => s.usage) (fun _ => True) m

theorem uncounted_modify {f : ParserState → ParserState} (h : ∀ s, (f s).usage = s.usage) :
    Uncounted (modify f) := Keeps.modify h

theorem uncounted_emit (e : StreamEvent) : Uncounted (emit e) := Keeps.emit trivial

theorem uncounted_emitStart (id model created : Option Json) :
    Uncounted (emitStart id model created) := by
  refine Keeps.bind Keeps.get fun s => ?_
  dsimp only
  split
  · exact Keeps.pure _
  · exact Keeps.bind (uncounted_modify fun _ => rfl) fun _ => uncounted_emit _

theorem uncounted_emitStop (reason : CanonicalStopReason) (raw : Option JsString) :
    Uncounted (emitStop reason raw) := by
  refine Keeps.bind Keeps.get fun s => ?_
  split
  · exact Keeps.pure _
  · exact Keeps.bind (uncounted_modify fun _ => rfl) fun _ => uncounted_emit _

theorem uncounted_emitDone : Uncounted emitDone := by
  refine Keeps.bind Keeps.get fun s => ?_
  split
  · exact Keeps.pure _
  · exact Keeps.bind (uncounted_modify fun _ => rfl) fun _ => uncounted_emit _

theorem uncounted_emitError (message : JsString) (code errorType : Option JsString) :
    Uncounted (emitError message code errorType) :=
  Keeps.bind (uncounted_modify fun _ => rfl) fun _ => uncounted_emit _

theorem uncounted_emitErrorObject (value : Option Json) : Uncounted (emitErrorObject value) := by
  unfold emitErrorObject
  split
  · split
    · exact uncounted_emitError _ _ _
    · exact uncounted_emitError _ _ _
  · exact uncounted_emitError _ _ _

theorem uncounted_emitText (text : JsString) : Uncounted (emitText text) := by
  unfold emitText
  split
  · exact Keeps.pure _
  · exact uncounted_emit _

theorem uncounted_anthropicToolIndex (blockIndex : JsNumber) :
    Uncounted (anthropicToolIndex blockIndex) := by
  refine Keeps.bind Keeps.get fun s => ?_
  split
  · exact Keeps.pure _
  · exact Keeps.bind (uncounted_modify fun _ => rfl) fun _ => Keeps.pure _

theorem uncounted_handleBlockStart (payload : JsonObject) : Uncounted (handleBlockStart payload) := by
  refine Keeps.bind (Keeps.whenever (uncounted_emitText _)) fun _ => Keeps.whenever ?_
  refine Keeps.bind (uncounted_anthropicToolIndex _) fun index => ?_
  exact Keeps.bind (uncounted_modify fun _ => rfl) fun _ => uncounted_emit _

theorem uncounted_handleBlockDelta (options : ParserOptions) (payload : JsonObject) :
    Uncounted (handleBlockDelta options payload) := by
  refine Keeps.bind (Keeps.whenever (uncounted_emitText _)) fun _ =>
    Keeps.bind (Keeps.whenever (uncounted_emit _)) fun _ => Keeps.whenever ?_
  refine Keeps.bind (uncounted_anthropicToolIndex _) fun index => ?_
  exact Keeps.bind (uncounted_modify fun _ => rfl) fun _ => uncounted_emit _

theorem uncounted_handleStopReason (rawReason : Option JsString) :
    Uncounted (handleStopReason rawReason) := by
  unfold handleStopReason
  split
  · exact Keeps.pure _
  · split
    · exact Keeps.bind (uncounted_emitError _ _ _) fun _ => uncounted_emitStop _ _
    · exact uncounted_emitStop _ _

theorem uncounted_handleMessageStop : Uncounted handleMessageStop := by
  refine Keeps.bind Keeps.get fun s => Keeps.bind (Keeps.whenever ?_) fun _ => uncounted_emitDone
  exact Keeps.bind (uncounted_emitError _ _ _) fun _ => uncounted_emitStop _ _

/-- A method that notes a usage object, if there is one. -/
def Notes (usage : Option JsonObject) (m : Handler Unit) : Prop :=
  ∀ s, (m s).2.1.usage = (usage.map (noteUsage s.usage)).getD s.usage

theorem notes_of_uncounted {m : Handler Unit} (h : Uncounted m) : Notes none m := fun s => (h s).1

theorem usage_seq (m n : Handler Unit) (s : ParserState) :
    ((do m; n : Handler Unit) s).2.1 = (n (m s).2.1).2.1 := by
  cases hm : m s with
  | mk r rest =>
      cases r with
      | error e => exact e.elim
      | ok u => rw [bind_of_ok hm]

theorem Notes.after {usage : Option JsonObject} {m n : Handler Unit} (hn : Notes usage n)
    (hm : Uncounted m) : Notes usage (do m; n) := fun s => by
  have hkept : (m s).2.1.usage = s.usage := (hm s).1
  rw [usage_seq, hn, hkept]

theorem Notes.before {usage : Option JsonObject} {m n : Handler Unit} (hm : Notes usage m)
    (hn : Uncounted n) : Notes usage (do m; n) := fun s => by
  rw [usage_seq, ← hm]
  exact (hn _).1

theorem notes_emitAnthropicUsage (usage : Option JsonObject) :
    Notes usage (emitAnthropicUsage usage) := by
  cases usage with
  | none => exact notes_of_uncounted (Keeps.pure _)
  | some usage =>
      intro s
      rw [emitAnthropicUsage_eq, emitParsedUsage]
      simp only [Option.map_some, Option.getD_some, noteUsage]
      split
      · rfl
      · rw [usage_seq]
        have hreport : Uncounted (do
            let s ← get
            if usageSignature s.usage = s.lastUsage then pure ()
            else do
              modify fun s => { s with lastUsage := usageSignature s.usage }
              emit (.usage s.usage) : Handler Unit) := by
          refine Keeps.bind Keeps.get fun s => ?_
          split
          · exact Keeps.pure _
          · exact Keeps.bind (uncounted_modify fun _ => rfl) fun _ => uncounted_emit _
        exact (hreport _).1

theorem notes_handleAnthropic (options : ParserOptions) (eventName : Option JsString)
    (payload : JsonObject) :
    Notes (usageObject (eventName, .object payload)) (handleAnthropic options eventName payload) := by
  unfold handleAnthropic usageObject
  simp only [objectValue]
  generalize stringValue (payload.prop "type") (eventName.getD []) = type
  by_cases herror : type = js "error"
  · subst herror
    exact notes_of_uncounted (uncounted_emitErrorObject _)
  rw [if_neg herror]
  by_cases hstart : type = js "message_start"
  · subst hstart
    exact (notes_emitAnthropicUsage _).after (uncounted_emitStart _ _ _)
  rw [if_neg hstart, if_neg hstart]
  by_cases hblockStart : type = js "content_block_start"
  · subst hblockStart
    exact notes_of_uncounted (uncounted_handleBlockStart _)
  rw [if_neg hblockStart]
  by_cases hblockDelta : type = js "content_block_delta"
  · subst hblockDelta
    exact notes_of_uncounted (uncounted_handleBlockDelta _ _)
  rw [if_neg hblockDelta]
  by_cases hdelta : type = js "message_delta"
  · subst hdelta
    exact (notes_emitAnthropicUsage _).before (uncounted_handleStopReason _)
  rw [if_neg hdelta, if_neg hdelta]
  split
  · exact notes_of_uncounted uncounted_handleMessageStop
  · exact notes_of_uncounted (Keeps.pure _)

/-- The counters are those of the usage objects in turn. -/
theorem countersAfter_eq (options : ParserOptions) (payloads : List (Option JsString × Json)) :
    countersAfter options payloads = (payloads.filterMap usageObject).foldl noteUsage {} := by
  have hpayload : ∀ p : Option JsString × Json,
      Notes (usageObject p) (handlePayload .anthropicMessages options p.1 p.2) := by
    intro p
    unfold handlePayload
    obtain ⟨eventName, value⟩ := p
    cases value with
    | object entries =>
        exact (notes_handleAnthropic options eventName entries).after
          (Keeps.whenever (uncounted_modify fun _ => rfl))
    | _ => exact notes_of_uncounted (uncounted_emitError _ _ _)
  have hrun : ∀ s, (execAll (payloads.map fun p =>
      handlePayload .anthropicMessages options p.1 p.2) s).2.usage =
      (payloads.filterMap usageObject).foldl noteUsage s.usage := by
    induction payloads with
    | nil => exact fun _ => rfl
    | cons p payloads ih =>
        intro s
        rw [List.map_cons, execAll]
        dsimp only
        rw [ih]
        have hp := hpayload p s
        unfold exec
        rw [hp]
        cases h : usageObject p with
        | none => rw [List.filterMap_cons_none h]; rfl
        | some usage => rw [List.filterMap_cons_some h]; rfl
  exact hrun {}

/-! ## Counts as numbers -/

theorem isFinite_ofNat {n : Nat} (h : n < 2 ^ 53) : (JsNumber.ofNat n).isFinite = true :=
  JsNumber.isFinite_ofInt (by omega)

theorem ofNat_add {a b : Nat} (h : a + b < 2 ^ 53) :
    JsNumber.ofNat a + JsNumber.ofNat b = JsNumber.ofNat (a + b) := by
  have := @JsNumber.ofInt_add a b (by omega) (by omega) (by omega)
  exact_mod_cast this

theorem ofNat_injective (ha : a < 2 ^ 53) (hb : b < 2 ^ 53)
    (h : JsNumber.ofNat a = JsNumber.ofNat b) : a = b := by
  have := @JsNumber.ofInt_injective a b (by omega) (by omega) h
  exact_mod_cast this

theorem finite_ofNat {n : Option Nat} (h : n.getD 0 < 2 ^ 53) :
    (n.map JsNumber.ofNat).filter (fun n => n.isFinite) = n.map .ofNat := by
  cases n with
  | none => rfl
  | some n => exact Option.filter_some_pos (isFinite_ofNat h)

theorem map_ofNat_inj {b : Option Nat} (ha : a.getD 0 < 2 ^ 53) (hb : b.getD 0 < 2 ^ 53) :
    a.map JsNumber.ofNat = b.map .ofNat ↔ a = b := by
  refine ⟨fun h => ?_, fun h => by rw [h]⟩
  cases a with
  | none => cases b <;> simp_all
  | some a =>
      cases b with
      | none => simp at h
      | some b => exact congrArg some (ofNat_injective ha hb (Option.some.inj h))

theorem getD_map_ofNat (a : Option Nat) :
    (a.map JsNumber.ofNat).getD (.ofInt 0) = .ofNat (a.getD 0) := by cases a <;> rfl

theorem map_sumCounts (h : a.getD 0 + b.getD 0 < 2 ^ 53) :
    (sumCounts a b).map JsNumber.ofNat = sumOptional (a.map .ofNat) (b.map .ofNat) := by
  unfold sumOptional
  rw [getD_map_ofNat, getD_map_ofNat, ofNat_add h]
  cases a <;> cases b <;> rfl

/-- Adding up what is there, from zero. -/
theorem foldl_counts {a b c : Option Nat} (h : a.getD 0 + b.getD 0 + c.getD 0 < 2 ^ 53) :
    let parts := [a.map JsNumber.ofNat, b.map .ofNat, c.map .ofNat].filterMap id
    (if parts = [] then none else some (parts.foldl (· + ·) (.ofInt 0))) =
      (sumCounts (sumCounts a b) c).map .ofNat := by
  have hzero : ∀ n, n < 2 ^ 53 → JsNumber.ofInt 0 + JsNumber.ofNat n = .ofNat n := fun n hn => by
    have := @ofNat_add 0 n (by omega)
    rwa [Nat.zero_add] at this
  cases a <;> cases b <;> cases c <;> simp only [Option.getD_some, Option.getD_none] at h <;>
    simp (disch := omega) [sumCounts, List.filterMap_cons, hzero, ofNat_add]

namespace TokenCounts

/-- The counters of one report. -/
def usage (c : TokenCounts) : CanonicalUsage where
  inputTokens := c.input.map .ofNat
  outputTokens := c.output.map .ofNat
  cachedInputTokens := c.cacheRead.map .ofNat
  cacheCreationInputTokens := c.creation.map .ofNat
  cacheCreation5mInputTokens := c.fiveMinutes.map .ofNat
  cacheCreation1hInputTokens := c.oneHour.map .ofNat
  reasoningTokens := c.thinking

theorem Small.creation {c : TokenCounts} (h : c.Small) : c.creation.getD 0 < 2 ^ 52 := by
  have hcount := h.cacheCreation
  have hfive := h.fiveMinutes
  have hone := h.oneHour
  unfold TokenCounts.creation
  cases hc : c.cacheCreation with
  | some n =>
      rw [hc, Option.getD_some] at hcount
      rw [Option.some_or, Option.getD_some]
      omega
  | none =>
      rw [Option.none_or, getD_sumCounts]
      omega

theorem Small.input {c : TokenCounts} (h : c.Small) :
    c.uncached.getD 0 + c.cacheRead.getD 0 + c.creation.getD 0 < 2 ^ 53 := by
  have huncached := h.uncached
  have hread := h.cacheRead
  have hcreation := h.creation
  omega

theorem getD_input (c : TokenCounts) :
    c.input.getD 0 = c.uncached.getD 0 + c.cacheRead.getD 0 + c.creation.getD 0 := by
  rw [input, getD_sumCounts, getD_sumCounts]

end TokenCounts

theorem parsedAnthropicUsage_of_reports (h : Reports usage c) (hsmall : c.Small) :
    parsedAnthropicUsage usage = c.usage := by
  have hparts : c.fiveMinutes.getD 0 + c.oneHour.getD 0 < 2 ^ 53 := by
    have hfive := hsmall.fiveMinutes
    have hone := hsmall.oneHour
    omega
  have hcreation : (c.cacheCreation.map JsNumber.ofNat).or
      (sumOptional (c.fiveMinutes.map .ofNat) (c.oneHour.map .ofNat)) = c.creation.map .ofNat := by
    rw [← map_sumCounts hparts, TokenCounts.creation, Option.map_or]
  have hsafe := hsmall.creation
  unfold parsedAnthropicUsage
  simp only [h.uncached, h.cacheRead, h.cacheCreation, h.fiveMinutes, h.oneHour, h.output,
    h.thinking, hcreation, foldl_counts hsmall.input]
  have hinput := hsmall.input
  rw [← TokenCounts.getD_input] at hinput
  rw [← TokenCounts.input, finite_ofNat hinput, finite_ofNat (by omega)]
  rfl

/-! ## Merging -/

/-- The counters after reports. -/
def mergedUsage (reports : List TokenCounts) : CanonicalUsage :=
  let input := (lastOf TokenCounts.input reports).map JsNumber.ofNat
  let output := (lastOf TokenCounts.output reports).map JsNumber.ofNat
  { inputTokens := input
    outputTokens := output
    totalTokens := sumDefined input output
    cachedInputTokens := (lastOf TokenCounts.cacheRead reports).map .ofNat
    cacheCreationInputTokens := (lastOf TokenCounts.creation reports).map .ofNat
    cacheCreation5mInputTokens := (lastOf TokenCounts.fiveMinutes reports).map .ofNat
    cacheCreation1hInputTokens := (lastOf TokenCounts.oneHour reports).map .ofNat
    reasoningTokens := lastOf TokenCounts.thinking reports }

theorem sumDefined_or (input output seenInput seenOutput : Option JsNumber) :
    (sumDefined (input.or seenInput) (output.or seenOutput)).or (sumDefined seenInput seenOutput) =
      sumDefined (input.or seenInput) (output.or seenOutput) := by
  cases input <;> cases output <;> cases seenInput <;> cases seenOutput <;> rfl

theorem mergedUsage_append (reports : List TokenCounts) (c : TokenCounts) :
    mergedUsage (reports ++ [c]) =
      if c.usage = {} then mergedUsage reports else mergeUsage (mergedUsage reports) c.usage := by
  unfold mergedUsage
  simp only [lastOf_append]
  split
  · next hempty =>
    obtain ⟨hinput, houtput, -, hread, hcreation, hfive, hone, hthinking⟩ :=
      CanonicalUsage.mk.inj hempty
    rw [Option.map_eq_none_iff] at hinput houtput hread hcreation hfive hone
    rw [hinput, houtput, hread, hcreation, hfive, hone, hthinking]
    rfl
  · unfold mergeUsage TokenCounts.usage
    simp only [Option.map_or, Option.none_or, sumDefined_or]

theorem foldl_noteUsage (h : List.Forall₂ Reports usages reports)
    (hsmall : ∀ c ∈ reports, c.Small) (before : List TokenCounts) :
    usages.foldl noteUsage (mergedUsage before) = mergedUsage (before ++ reports) := by
  induction h generalizing before with
  | nil => rw [List.append_nil]; rfl
  | @cons usage c usages reports hc _ ih =>
      rw [List.foldl_cons, noteUsage, parsedAnthropicUsage_of_reports hc (hsmall c (by simp)),
        ← mergedUsage_append, ih fun d hd => hsmall d (by simp [hd]), List.append_assoc]
      rfl

/-! ## Agreement -/

/-- The parts which the last report with an input part leaves out do not count, and the count of
created tokens that the last report with such tokens gives is the one of the last values. -/
structure PartsComplete (reports : List TokenCounts) : Prop where
  creation : ∀ c ∈ lastWith TokenCounts.creation reports,
    c.creation = (TokenCounts.last reports).creation
  input : ∀ c ∈ lastWith TokenCounts.input reports,
    (c.uncached = none → (TokenCounts.last reports).uncached.getD 0 = 0) ∧
      (c.cacheRead = none → (TokenCounts.last reports).cacheRead.getD 0 = 0) ∧
      (c.creation = none → (TokenCounts.last reports).creation.getD 0 = 0)

theorem creation_eq_none {c : TokenCounts} (h : c.creation = none) :
    c.cacheCreation = none ∧ c.fiveMinutes = none ∧ c.oneHour = none := by
  rw [TokenCounts.creation, Option.or_eq_none_iff, sumCounts_eq_none] at h
  exact h

theorem input_eq_none {c : TokenCounts} (h : c.input = none) :
    c.uncached = none ∧ c.cacheRead = none ∧ c.creation = none := by
  rw [TokenCounts.input, sumCounts_eq_none, sumCounts_eq_none, and_assoc] at h
  exact h

theorem getD_inj (ha : a ≠ none) (hb : b ≠ none) : a.getD 0 = b.getD 0 ↔ a = b := by
  obtain ⟨m, rfl⟩ := Option.ne_none_iff_exists'.mp ha
  obtain ⟨n, rfl⟩ := Option.ne_none_iff_exists'.mp hb
  simp

/-- A part that is the last one when it is there falls short by what it leaves out. -/
theorem part_iff (h : given ≠ none → final = given) : given.getD 0 ≤ final.getD 0 ∧
      (given.getD 0 = final.getD 0 ↔ (given = none → final.getD 0 = 0)) := by
  cases given with
  | none => simp [eq_comm]
  | some n => simp [h]

theorem lastOf_creation_iff (reports : List TokenCounts) :
    lastOf TokenCounts.creation reports = (TokenCounts.last reports).creation ↔
      ∀ c ∈ lastWith TokenCounts.creation reports,
        c.creation = (TokenCounts.last reports).creation := by
  cases h : lastWith TokenCounts.creation reports with
  | none =>
      have hcount := lastOf_eq_none (fun c hc => (creation_eq_none hc).1) h
      have hfive := lastOf_eq_none (fun c hc => (creation_eq_none hc).2.1) h
      have hone := lastOf_eq_none (fun c hc => (creation_eq_none hc).2.2) h
      rw [lastOf_eq_bind, h]
      simp [TokenCounts.last, TokenCounts.creation, hcount, hfive, hone, sumCounts]
  | some c => simp [lastOf_eq_bind, h]

theorem lastOf_input_iff (reports : List TokenCounts)
    (hcreation : lastOf TokenCounts.creation reports = (TokenCounts.last reports).creation) :
    lastOf TokenCounts.input reports = (TokenCounts.last reports).input ↔
      ∀ c ∈ lastWith TokenCounts.input reports,
        (c.uncached = none → (TokenCounts.last reports).uncached.getD 0 = 0) ∧
          (c.cacheRead = none → (TokenCounts.last reports).cacheRead.getD 0 = 0) ∧
          (c.creation = none → (TokenCounts.last reports).creation.getD 0 = 0) := by
  cases h : lastWith TokenCounts.input reports with
  | none =>
      have huncached := lastOf_eq_none (fun c hc => (input_eq_none hc).1) h
      have hread := lastOf_eq_none (fun c hc => (input_eq_none hc).2.1) h
      have hnone := lastOf_eq_none (fun c hc => (input_eq_none hc).2.2) h
      rw [hcreation] at hnone
      rw [lastOf_eq_bind, h, TokenCounts.input, hnone]
      simp [TokenCounts.last, huncached, hread, sumCounts]
  | some c =>
      -- A part that is there is the last one reported.
      have hpart : ∀ {g : TokenCounts → Option Nat}, (∀ c, c.input = none → g c = none) →
          ∀ {n}, g c = some n → lastOf g reports = some n := fun hg _ => lastOf_of_lastWith hg h
      have huncached : c.uncached ≠ none → (TokenCounts.last reports).uncached = c.uncached := by
        intro hne
        obtain ⟨n, hn⟩ := Option.ne_none_iff_exists'.mp hne
        rw [hn]
        exact hpart (fun c hc => (input_eq_none hc).1) hn
      have hread : c.cacheRead ≠ none → (TokenCounts.last reports).cacheRead = c.cacheRead := by
        intro hne
        obtain ⟨n, hn⟩ := Option.ne_none_iff_exists'.mp hne
        rw [hn]
        exact hpart (fun c hc => (input_eq_none hc).2.1) hn
      have hcreated : c.creation ≠ none → (TokenCounts.last reports).creation = c.creation := by
        intro hne
        obtain ⟨n, hn⟩ := Option.ne_none_iff_exists'.mp hne
        rw [hn, ← hcreation]
        exact hpart (fun c hc => (input_eq_none hc).2.2) hn
      have hsome : (lastOf TokenCounts.input reports) = c.input := by rw [lastOf_eq_bind, h]; rfl
      rw [hsome]
      simp only [Option.mem_some_iff, forall_eq']
      have hinput : c.input ≠ none := by
        intro hnone
        have := List.mem_of_getLast? h
        simp [hnone] at this
      have hlast : (TokenCounts.last reports).input ≠ none := by
        intro hnone
        obtain ⟨hu, hr, hk⟩ := input_eq_none hnone
        refine hinput (sumCounts_eq_none.mpr ⟨sumCounts_eq_none.mpr ⟨?_, ?_⟩, ?_⟩)
        · by_contra hne
          exact hne (huncached hne ▸ hu)
        · by_contra hne
          exact hne (hread hne ▸ hr)
        · by_contra hne
          exact hne (hcreated hne ▸ hk)
      rw [← getD_inj hinput hlast, TokenCounts.getD_input, TokenCounts.getD_input]
      obtain ⟨hule, hu⟩ := part_iff huncached
      obtain ⟨hrle, hr⟩ := part_iff hread
      obtain ⟨hkle, hk⟩ := part_iff hcreated
      rw [← hu, ← hr, ← hk]
      omega

/-- The counters after a stream are those of one object with the
last values, they are consistent, and they are written back as they came. -/
structure MergesFieldwise (usage : CanonicalUsage) (single : JsonObject) (last : TokenCounts) :
    Prop where
  merged : usage = noteUsage {} single
  covers : ∃ input cached creation : Nat, usage.inputTokens.getD (.ofInt 0) = .ofNat input ∧
    usage.cachedInputTokens.getD (.ofInt 0) = .ofNat cached ∧
    usage.cacheCreationInputTokens.getD (.ofInt 0) = .ofNat creation ∧ cached + creation ≤ input
  uncached : (numberValue ((anthropicUsage usage).prop "input_tokens")).getD (.ofInt 0) =
    .ofNat (last.uncached.getD 0)
  cacheRead : numberValue ((anthropicUsage usage).prop "cache_read_input_tokens") =
    last.cacheRead.map .ofNat
  cacheCreation : numberValue ((anthropicUsage usage).prop "cache_creation_input_tokens") =
    last.creation.map .ofNat

theorem exists_of_lastOf {α β : Type} {f : α → Option β} {as : List α} {b : β}
    (h : lastOf f as = some b) : ∃ a ∈ as, f a = some b :=
  List.mem_filterMap.mp (List.mem_of_getLast? h)

variable {reports : List TokenCounts}

theorem lastOf_lt {f : TokenCounts → Option Nat} {bound : Nat} (hbound : 0 < bound)
    (h : ∀ c ∈ reports, (f c).getD 0 < bound) : (lastOf f reports).getD 0 < bound := by
  cases hlast : lastOf f reports with
  | none => exact hbound
  | some n =>
      obtain ⟨c, hc, hn⟩ := exists_of_lastOf hlast
      have := h c hc
      rwa [hn] at this

theorem small_last (h : ∀ c ∈ reports, c.Small) : (TokenCounts.last reports).Small where
  uncached := lastOf_lt (by decide) fun c hc => (h c hc).uncached
  cacheRead := lastOf_lt (by decide) fun c hc => (h c hc).cacheRead
  cacheCreation := lastOf_lt (by decide) fun c hc => (h c hc).cacheCreation
  fiveMinutes := lastOf_lt (by decide) fun c hc => (h c hc).fiveMinutes
  oneHour := lastOf_lt (by decide) fun c hc => (h c hc).oneHour

theorem mergedUsage_eq_last_iff (h : ∀ c ∈ reports, c.Small) :
    mergedUsage reports = mergedUsage [TokenCounts.last reports] ↔ PartsComplete reports := by
  have hlast := small_last h
  have hlastInput : (TokenCounts.last reports).input.getD 0 < 2 ^ 53 := by
    rw [TokenCounts.getD_input]
    exact hlast.input
  have hinput : (lastOf TokenCounts.input reports).getD 0 < 2 ^ 53 :=
    lastOf_lt (by decide) fun c hc => by
      rw [TokenCounts.getD_input]
      exact (h c hc).input
  have hcreation : (lastOf TokenCounts.creation reports).getD 0 < 2 ^ 53 :=
    lastOf_lt (by decide) fun c hc => (h c hc).creation.trans (by decide)
  have hsingle : ∀ {β : Type} (f : TokenCounts → Option β) (c : TokenCounts),
      lastOf f [c] = f c := fun f c => by cases hc : f c <;> simp [lastOf, hc]
  constructor
  · intro heq
    obtain ⟨heqInput, -, -, -, heqCreation, -⟩ := CanonicalUsage.mk.inj heq
    rw [hsingle, map_ofNat_inj hinput hlastInput] at heqInput
    rw [hsingle, map_ofNat_inj hcreation (hlast.creation.trans (by decide))] at heqCreation
    exact ⟨(lastOf_creation_iff reports).mp heqCreation,
      (lastOf_input_iff reports heqCreation).mp heqInput⟩
  · intro hcomplete
    have heqCreation := (lastOf_creation_iff reports).mpr hcomplete.creation
    have heqInput := (lastOf_input_iff reports heqCreation).mpr hcomplete.input
    unfold mergedUsage
    simp only [hsingle, heqCreation, heqInput]
    rfl

theorem atLeastZero_ofNat {n : Nat} (h : n < 2 ^ 53) : atLeastZero (.ofNat n) = .ofNat n := by
  have hneg := @JsNumber.ofInt_lt_zero n (by omega)
  unfold atLeastZero
  rw [JsNumber.ofNat, JsNumber.isNaN_ofInt (by omega), if_neg Bool.false_ne_true, if_neg]
  intro hlt
  have := hneg.mp hlt
  omega

theorem inputTokens_anthropicUsage (usage : CanonicalUsage) :
    (anthropicUsage usage).prop "input_tokens" = (usage.inputTokens.map fun inputTokens =>
      atLeastZero (inputTokens - usage.cachedInputTokens.getD (.ofInt 0) -
        (usage.cacheCreationInputTokens.or (sumOptional usage.cacheCreation5mInputTokens
          usage.cacheCreation1hInputTokens)).getD (.ofInt 0))).map .number := by
  unfold anthropicUsage
  simp +decide only [prop_omitUndefined_cons, prop_omitUndefined_nil, if_true, if_false,
    Option.or_none]

theorem cacheRead_anthropicUsage (usage : CanonicalUsage) :
    (anthropicUsage usage).prop "cache_read_input_tokens" =
      usage.cachedInputTokens.map .number := by
  unfold anthropicUsage
  simp +decide only [prop_omitUndefined_cons, prop_omitUndefined_nil, if_true, if_false,
    Option.or_none]

theorem cacheCreation_anthropicUsage (usage : CanonicalUsage) :
    (anthropicUsage usage).prop "cache_creation_input_tokens" =
      usage.cacheCreationInputTokens.map .number := by
  unfold anthropicUsage
  simp +decide only [prop_omitUndefined_cons, prop_omitUndefined_nil, if_true, if_false,
    Option.or_none]

/-- A report without created tokens has no parts of them. -/
theorem creation_or_parts (c : TokenCounts) :
    (c.creation.map JsNumber.ofNat).or
      (sumOptional (c.fiveMinutes.map .ofNat) (c.oneHour.map .ofNat)) =
        c.creation.map .ofNat := by
  cases hc : c.creation with
  | some n => rfl
  | none =>
      obtain ⟨-, hfive, hone⟩ := creation_eq_none hc
      rw [hfive, hone]
      rfl

/-- The counters of one report are consistent and are written back as they came. -/
theorem mergesFieldwise_last (h : c.Small) (hmerged : mergedUsage [c] = noteUsage {} single) :
    MergesFieldwise (mergedUsage [c]) single c := by
  have hsingle : ∀ {β : Type} (f : TokenCounts → Option β), lastOf f [c] = f c := fun f => by
    cases hc : f c <;> simp [lastOf, hc]
  have hinput := h.input
  have hsub : ∀ {a b : Nat}, a < 2 ^ 53 → b ≤ a →
      JsNumber.ofNat a - JsNumber.ofNat b = .ofNat (a - b) := by
    intro a b ha hb
    have := @JsNumber.ofInt_sub a b (by omega) (by omega) (by omega)
    rwa [← Nat.cast_sub hb] at this
  have hnumber : ∀ {n : Nat}, n < 2 ^ 53 → numberValue (some (.number (.ofNat n))) = some (.ofNat n) :=
    fun hn => by rw [numberValue, if_pos (isFinite_ofNat hn)]
  refine ⟨hmerged, ⟨c.input.getD 0, c.cacheRead.getD 0, c.creation.getD 0, ?_, ?_, ?_, ?_⟩, ?_, ?_, ?_⟩
  · rw [mergedUsage, hsingle, getD_map_ofNat]
  · simp only [mergedUsage, hsingle, getD_map_ofNat]
  · simp only [mergedUsage, hsingle, getD_map_ofNat]
  · rw [TokenCounts.getD_input]
    omega
  · rw [inputTokens_anthropicUsage]
    unfold mergedUsage
    simp only [hsingle, getD_map_ofNat]
    rw [creation_or_parts, getD_map_ofNat]
    cases hc : c.input with
    | none => rw [(input_eq_none hc).1]; rfl
    | some n =>
        have hn := TokenCounts.getD_input c
        rw [hc, Option.getD_some] at hn
        simp only [Option.map_some]
        rw [hsub (by omega) (by omega), hsub (by omega) (by omega), atLeastZero_ofNat (by omega),
          hnumber (by omega), Option.getD_some]
        congr 1
        omega
  · rw [cacheRead_anthropicUsage]
    unfold mergedUsage
    simp only [hsingle]
    cases hc : c.cacheRead with
    | none => rfl
    | some n =>
        rw [hc, Option.getD_some] at hinput
        exact hnumber (by omega)
  · rw [cacheCreation_anthropicUsage]
    unfold mergedUsage
    simp only [hsingle]
    cases hc : c.creation with
    | none => rfl
    | some n =>
        rw [hc, Option.getD_some] at hinput
        exact hnumber (by omega)

/-- The counters of a stream are merged field by field exactly when no part that counts is left
out. -/
theorem anthropicUsage_merges_iff (options : ParserOptions)
    (payloads : List (Option JsString × Json)) (reports : List TokenCounts) (single : JsonObject)
    (hreports : List.Forall₂ Reports (payloads.filterMap usageObject) reports)
    (hsmall : ∀ c ∈ reports, c.Small) (hsingle : Reports single (TokenCounts.last reports)) :
    MergesFieldwise (countersAfter options payloads) single (TokenCounts.last reports) ↔
      PartsComplete reports := by
  have hcounters : countersAfter options payloads = mergedUsage reports := by
    rw [countersAfter_eq]
    exact foldl_noteUsage hreports hsmall []
  have hlast : noteUsage {} single = mergedUsage [TokenCounts.last reports] :=
    foldl_noteUsage (.cons hsingle .nil) (by simpa using small_last hsmall) []
  rw [hcounters, ← mergedUsage_eq_last_iff hsmall]
  constructor
  · intro h
    exact h.merged.trans hlast
  · intro h
    rw [h]
    exact mergesFieldwise_last (small_last hsmall) hlast.symm

/-! ## Examples of streams -/

/-- A usage object of these properties. -/
def usageOf (entries : List (String × Nat)) : Json :=
  .object (entries.map fun e => (js e.1, .number (.ofNat e.2)))

def messageStart (usage : Json) : Option JsString × Json :=
  (none, .object [(js "type", .string (js "message_start")),
    (js "message", .object [(js "usage", usage)])])

def messageDelta (usage : Json) : Option JsString × Json :=
  (none, .object [(js "type", .string (js "message_delta")), (js "delta", .object []),
    (js "usage", usage)])

/-- The output count alone leaves the input counts as they were. -/
theorem merges_outputLast :
    MergesFieldwise
      (countersAfter {}
        [messageStart (usageOf [("input_tokens", 10), ("cache_read_input_tokens", 30)]),
          messageDelta (usageOf [("output_tokens", 5)])])
      [(js "input_tokens", .number (.ofNat 10)), (js "cache_read_input_tokens", .number (.ofNat 30)),
        (js "output_tokens", .number (.ofNat 5))]
      { uncached := some 10, cacheRead := some 30, output := some 5 } :=
  (anthropicUsage_merges_iff {}
    [messageStart (usageOf [("input_tokens", 10), ("cache_read_input_tokens", 30)]),
      messageDelta (usageOf [("output_tokens", 5)])]
    [{ uncached := some 10, cacheRead := some 30 }, { output := some 5 }]
    [(js "input_tokens", .number (.ofNat 10)), (js "cache_read_input_tokens", .number (.ofNat 30)),
      (js "output_tokens", .number (.ofNat 5))]
    (.cons (by constructor <;> decide +kernel) (.cons (by constructor <;> decide +kernel) .nil))
    (by
      intro c hc
      rcases List.mem_cons.mp hc with rfl | hc
      · constructor <;> decide
      · rw [List.mem_singleton.mp hc]
        constructor <;> decide)
    (by constructor <;> decide +kernel)).mpr
    ⟨by decide +kernel, by decide +kernel⟩

/-- A later input count without the cached count loses the cached tokens. -/
theorem merges_fails :
    ¬MergesFieldwise
      (countersAfter {}
        [messageStart (usageOf [("input_tokens", 10), ("cache_read_input_tokens", 30)]),
          messageDelta (usageOf [("input_tokens", 10), ("output_tokens", 5)])])
      [(js "input_tokens", .number (.ofNat 10)), (js "cache_read_input_tokens", .number (.ofNat 30)),
        (js "output_tokens", .number (.ofNat 5))]
      { uncached := some 10, cacheRead := some 30, output := some 5 } := by
  intro h
  exact absurd h.merged (by decide +kernel)

end StonePlus.Streaming
