import StonePlus.Types

/-!
# StonePlus.SourceEligibility

Static and runtime source eligibility (`shared/source-eligibility.ts` and the
capability lookup of `shared/source-capabilities.ts`).

`evaluateSourceEligibility` splits the accounts that expose a model into the
`verified` and the `unknown` tier; `isRouteAccountRuntimeAvailable` and
`hasRouteAccountCapacity` are the runtime gates the scheduler overlays with
its own counts.
-/

namespace StonePlus

/-! ## Provider capabilities -/

/-- Fill the flags `inferred` leaves open with those of `fallback`. -/
def Capabilities.over (inferred fallback : Capabilities) : Capabilities :=
  fun c => (inferred c).or (fallback c)

/-- Protocol-level guesses for a provider without a declared profile. -/
def inferUpstreamCapabilities (p : ProviderDefinition) : Capabilities :=
  let responses := p.protocol = .openaiResponses
  let kiroClaude := p.protocol = .kiroClaude
  let officialResponses := responses ∧ p.sourceType = .officialApi ∧ p.kind = .openai
  let nativeGrok := p.kind = .xai ∧ (p.sourceType = .officialApi ∨ p.sourceType = .oauthSystem)
  let deepSeekResponses := responses ∧ (p.kind = .deepseek ∨ p.kind = .deepseekCompatible)
  fun
    | .streaming => some true
    | .nonStreaming => some true
    | .toolCalls => some (decide (¬ kiroClaude))
    | .modelDiscovery => if kiroClaude then some false else none
    | .compact =>
        some (decide (¬ deepSeekResponses ∧ responses ∧
          (officialResponses ∨ p.responsesCompactMode.isSome)))
    | .websocket => if officialResponses then some true else none
    | .webSearch | .reasoning | .parallelToolCalls =>
        if deepSeekResponses ∨ officialResponses then some true else none
    | .store | .previousResponseId =>
        if deepSeekResponses then some false
        else if officialResponses then some true else none
    | .imageInput | .promptCaching => if deepSeekResponses then some false else none
    | .imageGeneration | .imageEdit | .videoGeneration | .videoEdit =>
        if nativeGrok then some true else none
    | .live => none

def normalizeCapabilityProfile (value : Option UpstreamCapabilityProfile)
    (fallback : Capabilities) : Capabilities :=
  match value with
  | some profile => if profile.version = 1 then profile.flags.over fallback else fallback
  | none => fallback

def effectiveProviderCapabilities (p : ProviderDefinition) : Capabilities :=
  normalizeCapabilityProfile p.capabilityProfile (inferUpstreamCapabilities p)

def providerModelCapabilities (p : ProviderDefinition) (model : Option JsString) : Capabilities :=
  let profile := effectiveProviderCapabilities p
  let selected := match model with
    | some m =>
      if m = [] then none
      else (p.modelCatalog.getD []).find? fun item : ModelCapabilityDefinition =>
        decide (item.id = m)
    | none => none
  match selected.bind ModelCapabilityDefinition.capabilities with
  | some capabilities => capabilities.over profile
  | none => profile

/-! ## Runtime gates -/

/-- Long-lived route binding excludes only accounts requiring user repair. -/
def isRouteAccountBindable (account : Account) : Bool :=
  decide (account.status ≠ .disabled) && decide (account.status ≠ .expired)

/-- Runtime health gate shared by route diagnostics and the scheduler. -/
def isRouteAccountRuntimeAvailable (account : Account) (now : Millis) : Bool :=
  if !isRouteAccountBindable account || decide (account.status = .checking) then false
  else if account.status = .cooldown ∧ account.cooldownUntil = none then false
  else decide (account.cooldownUntil.getD 0 ≤ now)

def routeAccountInFlight (value : Rat) : Int := max 0 ⌊value⌋

def routeAccountConcurrencyLimit (value : Rat) : Int := max 1 ⌊value⌋

/-- Capacity calculation with the scheduler's live count and limit. -/
def hasRouteAccountCapacity (inFlight concurrencyLimit : Rat) : Bool :=
  decide (routeAccountInFlight inFlight < routeAccountConcurrencyLimit concurrencyLimit)

theorem one_le_routeAccountConcurrencyLimit (value : Rat) :
    1 ≤ routeAccountConcurrencyLimit value := le_max_left _ _

/-- Limiting an integer limit of at least one changes nothing. -/
theorem routeAccountConcurrencyLimit_intCast {n : Int} (h : 1 ≤ n) :
    routeAccountConcurrencyLimit (n : Rat) = n := by
  simp [routeAccountConcurrencyLimit, h]

/-- Capacity against an integer limit is a strict comparison of the raw count. -/
theorem hasRouteAccountCapacity_iff {limit : Int} (h : 1 ≤ limit) :
    hasRouteAccountCapacity inFlight limit = true ↔ inFlight < limit := by
  rw [hasRouteAccountCapacity, decide_eq_true_iff, routeAccountConcurrencyLimit_intCast h,
    routeAccountInFlight, max_lt_iff, Int.floor_lt]
  exact and_iff_right (by omega)

/-! ## Static eligibility -/

inductive CapabilityEligibility
  | verified | unknown | unsupported
  deriving DecidableEq, Repr

structure SourceEligibilityResult where
  modelEligible : List Account
  verified : List Account
  unknown : List Account
  unsupported : List Account

def accountSupportsModel (account : Account) (model : Option JsString)
    (provider : Option ProviderDefinition) (poolModelPolicy : ModelPolicy)
    (poolModelAllowlist : List JsString) (requireProvider : Bool) : Bool :=
  if requireProvider && provider.isNone then false
  else match model with
    | none => true
    | some m =>
        if m = [] then true
        else if poolModelPolicy = .selected ∧ m ∉ poolModelAllowlist then false
        else
          let relayProbeExposesModel : Bool := match provider with
            | some p => decide (p.sourceType = .relay ∧ m ∈ p.models)
            | none => false
          -- An explicit per-account allowlist is authoritative: it is read before
          -- the provider-scoped relay probe.
          if account.modelPolicy = .selected ∧ m ∉ account.modelAllowlist then false
          else if relayProbeExposesModel then true
          else if account.modelsRefreshedAt = none then true
          else decide (m ∈ account.availableModels)

/-- Any capability declared `false` excludes; any unchecked one demotes to
`unknown`. -/
def accountCapabilityEligibility (provider : Option ProviderDefinition) (model : Option JsString)
    (requiredCapabilities : List UpstreamCapabilityRequirement) (requireProvider : Bool) :
    CapabilityEligibility :=
  match provider with
  | none =>
      if requireProvider then .unsupported
      else if requiredCapabilities = [] then .verified else .unknown
  | some p =>
      let capabilities := providerModelCapabilities p model
      if requiredCapabilities.any fun c => decide (capabilities c = some false) then .unsupported
      else if requiredCapabilities.all fun c => decide (capabilities c = some true) then .verified
      else .unknown

/-- Shared static source eligibility: `verified`, `unknown` and `unsupported`
partition the accounts that expose the model. -/
def evaluateSourceEligibility (accounts : List Account) (providers : List ProviderDefinition)
    (model : Option JsString) (poolModelPolicy : ModelPolicy) (poolModelAllowlist : List JsString)
    (requiredCapabilities : List UpstreamCapabilityRequirement) (requireProvider : Bool) :
    SourceEligibilityResult :=
  -- `new Map(providers.map(p => [p.id, p]))`: the last provider of an id wins.
  let providerById (id : JsString) := providers.reverse.find? fun p => p.id = id
  let modelEligible := accounts.filter fun account =>
    accountSupportsModel account model (providerById account.providerId) poolModelPolicy
      poolModelAllowlist requireProvider
  let status (account : Account) := accountCapabilityEligibility
    (providerById account.providerId) model requiredCapabilities requireProvider
  { modelEligible := modelEligible
    verified := modelEligible.filter fun account => decide (status account = .verified)
    unknown := modelEligible.filter fun account => decide (status account = .unknown)
    unsupported := modelEligible.filter fun account => decide (status account = .unsupported) }

end StonePlus
