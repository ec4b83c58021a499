import StonePlus.Js.Map
import StonePlus.Js.Str
import Mathlib.Data.Rat.Floor

/-!
# StonePlus.Types

The configuration records of `shared/types.ts`, restricted to the fields the
gateway's scheduling code reads.

Times are milliseconds since the epoch (`Millis`), counters are natural
numbers, and every other number is an exact rational: finite JavaScript
numbers without rounding.  An optional property is an `Option`.
-/

namespace StonePlus

/-- Milliseconds since the epoch, or a duration in milliseconds. -/
abbrev Millis := Nat

inductive AccountStatus
  | active | cooldown | disabled | expired | checking
  deriving DecidableEq, Repr

inductive AccountCircuitState
  | closed | open | halfOpen
  deriving DecidableEq, Repr

inductive CooldownReason
  | quota | failure
  deriving DecidableEq, Repr

inductive ModelPolicy
  | all | selected
  deriving DecidableEq, Repr

inductive CredentialType
  | apiKey | chatgptOauth | chatgptAgentIdentity | grokOauth
  deriving DecidableEq, Repr

inductive AccountModelCooldownReason
  | notFound | permission | planRestricted | rateLimit
  deriving DecidableEq, Repr

structure AccountModelCooldown where
  untilAt : Millis
  reason : AccountModelCooldownReason
  statusCode : Option Nat
  updatedAt : Millis
  deriving DecidableEq, Repr

structure QuotaWindow where
  limit : Option Rat
  remaining : Option Rat
  resetAt : Option Millis
  deriving DecidableEq

/-- `observedAt` is absent where the stored value is not a finite number. -/
structure AccountQuotaSnapshot where
  requests : Option QuotaWindow
  tokens : Option QuotaWindow
  inputTokens : Option QuotaWindow
  outputTokens : Option QuotaWindow
  observedAt : Option Millis
  deriving DecidableEq

structure CodexQuotaWindow where
  usedPercent : Rat
  resetAt : Option Millis
  deriving DecidableEq

structure AccountCodexQuotaSnapshot where
  fiveHour : Option CodexQuotaWindow
  sevenDay : Option CodexQuotaWindow
  monthly : Option CodexQuotaWindow
  observedAt : Millis
  deriving DecidableEq

structure AccountGrokQuotaSnapshot where
  remainingPercent : Option Rat
  limit : Option Rat
  remaining : Option Rat
  resetAt : Option Millis
  observedAt : Millis
  deriving DecidableEq

inductive UnavailableBehavior
  | allow | block
  deriving DecidableEq, Repr

structure QuotaProtectionPolicy where
  fiveHourRemainingPercent : Option Rat
  sevenDayRemainingPercent : Option Rat
  unavailableBehavior : Option UnavailableBehavior
  staleAfterMinutes : Option Rat
  deriving DecidableEq

structure Account where
  id : JsString
  providerId : JsString
  credentialType : Option CredentialType
  status : AccountStatus
  priority : Rat
  weight : Rat
  maxConcurrency : Rat
  inFlight : Rat
  availableModels : List JsString
  modelsRefreshedAt : Option Millis
  modelPolicy : ModelPolicy
  modelAllowlist : List JsString
  quota : Option AccountQuotaSnapshot
  codexQuota : Option AccountCodexQuotaSnapshot
  grokQuota : Option AccountGrokQuotaSnapshot
  quotaProtection : Option QuotaProtectionPolicy
  cooldownUntil : Option Millis
  cooldownReason : Option CooldownReason
  circuitState : Option AccountCircuitState
  consecutiveFailures : Option Nat
  modelCooldowns : List (JsString × AccountModelCooldown)
  updatedAt : Millis
  deriving DecidableEq

structure PoolMember where
  accountId : JsString
  enabled : Bool
  weight : Option Rat
  order : Option Rat
  deriving DecidableEq

inductive PoolKind
  | standard | relayAggregate
  deriving DecidableEq, Repr

/-- A pool strategy as read at run time: `other` is any string outside the
declared union. -/
inductive PoolStrategy
  | balanced | autobalanced | priority | roundRobin | weightedRandom | weightedRoundRobin
  | other (name : JsString)
  deriving DecidableEq, Repr

structure Pool where
  id : JsString
  kind : PoolKind
  strategy : PoolStrategy
  members : List PoolMember
  modelPolicy : ModelPolicy
  modelAllowlist : List JsString
  stickySessions : Bool
  stickyTtlMinutes : Rat
  quotaProtection : Option QuotaProtectionPolicy
  deriving DecidableEq

inductive Protocol
  | anthropicMessages | openaiResponses | openaiChat | gemini | kiroClaude
  deriving DecidableEq, Repr

inductive ProviderKind
  | anthropic | openai | deepseek | xai | google | openaiCompatible | deepseekCompatible
  | xaiCompatible | anthropicCompatible | kiroCompatible | custom
  deriving DecidableEq, Repr

inductive UpstreamSourceType
  | oauthSystem | officialApi | relay
  deriving DecidableEq, Repr

inductive ResponsesCompactMode
  | auto | legacy | passthrough | native
  deriving DecidableEq, Repr

inductive UpstreamCapabilityRequirement
  | streaming | nonStreaming | toolCalls | modelDiscovery | imageInput | imageGeneration
  | imageEdit | videoGeneration | videoEdit | live | webSearch | compact | websocket
  | promptCaching | reasoning | store | previousResponseId | parallelToolCalls
  deriving DecidableEq, Repr

/-- Feature flags: `none` is "not checked", which differs from "not supported". -/
abbrev Capabilities := UpstreamCapabilityRequirement → Option Bool

structure UpstreamCapabilityProfile where
  version : Nat
  flags : Capabilities

structure ModelCapabilityDefinition where
  id : JsString
  capabilities : Option Capabilities

structure ProviderDefinition where
  id : JsString
  sourceType : UpstreamSourceType
  kind : ProviderKind
  protocol : Protocol
  models : List JsString
  responsesCompactMode : Option ResponsesCompactMode
  capabilityProfile : Option UpstreamCapabilityProfile
  modelCatalog : Option (List ModelCapabilityDefinition)

structure SchedulerSelectionInput where
  pool : Pool
  accounts : List Account
  model : JsString
  modelCooldownKey : Option JsString
  skipAccountModelCatalog : Bool
  sessionId : Option JsString
  excludedAccountIds : List JsString
  providers : Option (List ProviderDefinition)
  requiredCapabilities : List UpstreamCapabilityRequirement

inductive RequestLogStatus
  | success | error | streaming
  deriving DecidableEq, Repr

/-- The timing fields of a persisted request log. -/
structure RequestLog where
  accountId : Option JsString
  timestamp : Millis
  status : RequestLogStatus
  latencyMs : Rat
  upstreamFirstByteMs : Option Rat
  accountFirstTokenMs : Option Rat
  firstTokenMs : Option Rat
  outputTokens : Option Rat
  deriving DecidableEq

end StonePlus
