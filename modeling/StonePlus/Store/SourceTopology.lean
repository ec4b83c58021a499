import StonePlus.Lib.Fresh
import StonePlus.Types

/-!
# StonePlus.Store.SourceTopology

`migrateSourceTopology` of `store/app-store.ts`: the sign-in accounts of ChatGPT and Grok move to
one system source each, and every other account gets a source of its own.

`ρ` are the other fields of a source and `α` those of an account, which are copied.  The number of
turns of a search for a free id is bounded by the number of sources.
-/

namespace StonePlus.SourceTopology

open Lib

variable {ρ α : Type}

structure ProviderDefinition (ρ : Type) where
  id : JsString
  name : JsString
  sourceType : UpstreamSourceType
  kind : ProviderKind
  baseUrl : JsString
  protocol : Protocol
  color : Option JsString
  models : List JsString
  createdAt : Int
  updatedAt : Int
  others : ρ
  deriving DecidableEq

structure Account (α : Type) where
  id : JsString
  providerId : JsString
  name : JsString
  credentialType : Option CredentialType
  createdAt : Int
  updatedAt : Int
  others : α
  deriving DecidableEq

structure Topology (ρ α : Type) where
  providers : List (ProviderDefinition ρ)
  accounts : List (Account α)

structure Options (ρ : Type) where
  /-- The host name of a URL in lower case. -/
  hostname? : JsString → Option JsString
  timestamp : Int
  /-- The other fields of a source that has none. -/
  noOthers : ρ

variable (options : Options ρ)

def isChatGptAccount (a : Account α) : Bool :=
  a.credentialType = some .chatgptOauth || a.credentialType = some .chatgptAgentIdentity

def isGrokAccount (a : Account α) : Bool := a.credentialType = some .grokOauth

/-- What the source calls API-key accounts: all others. -/
def isApiKeyAccount (a : Account α) : Bool := !isChatGptAccount a && !isGrokAccount a

/-! ## Ids -/

def ids (providers : List (ProviderDefinition ρ)) : List JsString :=
  providers.map ProviderDefinition.id

/-- The id itself, and then the id with a number. -/
def numbered (preferred : JsString) : Nat → JsString
  | 0 => preferred
  | n + 1 => preferred ++ js "-" ++ natToString (n + 1)

def uniqueMigratedProviderId (providers : List (ProviderDefinition ρ)) (preferred : JsString) :
    JsString :=
  if preferred ∉ ids providers then preferred
  else
    numbered preferred
      (firstFree (ids providers) (numbered preferred) ((ids providers).length + 1) 1)

/-- The id of a system source; the loop begins with the id itself. -/
def systemProviderId (providers : List (ProviderDefinition ρ)) (preferred : JsString) : JsString :=
  numbered preferred
    (firstFree (ids providers) (numbered preferred) ((ids providers).length + 1) 0)

def inferProviderSourceType (kind : ProviderKind) (baseUrl : JsString) : UpstreamSourceType :=
  match options.hostname? baseUrl with
  | some hostname =>
    if (kind = .openai ∧ hostname = js "api.openai.com") ∨
        (kind = .xai ∧ hostname = js "api.x.ai") ∨
        (kind = .deepseek ∧ hostname = js "api.deepseek.com") ∨
        (kind = .anthropic ∧ hostname = js "api.anthropic.com") ∨
        (kind = .google ∧ hostname = js "generativelanguage.googleapis.com") then
      .officialApi
    else .relay
  | none => .relay

/-! ## System sources -/

/-- A system source: how it is found, its fields when it is new, what is assigned to it, and the
accounts that move to it. -/
structure SystemSource (ρ α : Type) where
  isSystem : ProviderDefinition ρ → Bool
  preferredId : JsString
  fresh : JsString → ProviderDefinition ρ
  assign : ProviderDefinition ρ → ProviderDefinition ρ
  owns : Account α → Bool

def isChatGptProvider (p : ProviderDefinition ρ) : Bool :=
  p.sourceType = .oauthSystem && p.kind = .openai

def isGrokProvider (p : ProviderDefinition ρ) : Bool :=
  p.sourceType = .oauthSystem && p.kind = .xai && p.protocol = .openaiResponses

def grokOAuthBaseUrl : JsString := js "https://cli-chat-proxy.grok.com/v1"

def chatGptSource : SystemSource ρ α where
  isSystem := isChatGptProvider
  preferredId := js "provider-chatgpt-oauth"
  fresh id :=
    { id
      name := js "ChatGPT OAuth"
      sourceType := .oauthSystem
      kind := .openai
      baseUrl := js "https://api.openai.com/v1"
      protocol := .openaiResponses
      color := some (js "#10a37f")
      models := [js "gpt-5", js "gpt-5-mini", js "o3"]
      createdAt := options.timestamp
      updatedAt := options.timestamp
      others := options.noOthers }
  assign p :=
    { p with
      name := js "ChatGPT OAuth"
      sourceType := .oauthSystem
      kind := .openai
      baseUrl := js "https://api.openai.com/v1"
      protocol := .openaiResponses }
  owns := isChatGptAccount

def grokSource : SystemSource ρ α where
  isSystem := isGrokProvider
  preferredId := js "provider-grok-oauth"
  fresh id :=
    { id
      name := js "Grok OAuth"
      sourceType := .oauthSystem
      kind := .xai
      baseUrl := grokOAuthBaseUrl
      protocol := .openaiResponses
      color := some (js "#000000")
      models := [js "grok-4.5"]
      createdAt := options.timestamp
      updatedAt := options.timestamp
      others := options.noOthers }
  assign p :=
    { p with
      name := js "Grok OAuth"
      sourceType := .oauthSystem
      kind := .xai
      baseUrl := grokOAuthBaseUrl
      protocol := .openaiResponses
      models := [js "grok-4.5"]
      updatedAt := options.timestamp }
  owns := isGrokAccount

/-- The system source is found or added, overwritten in place, and gets its accounts.  The result
has its position too. -/
def adopt (source : SystemSource ρ α) (t : Topology ρ α) : Topology ρ α × Option Nat :=
  let found := t.providers.findIdx? source.isSystem
  let (providers, index) :=
    match found with
    | some i => (t.providers, some i)
    | none =>
      if t.accounts.any source.owns then
        (t.providers ++ [source.fresh (systemProviderId t.providers source.preferredId)],
          some t.providers.length)
      else (t.providers, none)
  match index.bind fun i => providers[i]?.map (i, ·) with
  | some (i, provider) =>
    (⟨providers.set i (source.assign provider),
      t.accounts.map fun a => if source.owns a then { a with providerId := provider.id } else a⟩,
      some i)
  | none => (⟨providers, t.accounts⟩, none)

/-! ## Sources of their own -/

/-- `a || b` for a number. -/
def orNumber (a b : Int) : Int := if a = 0 then b else a

/-- `a || b` for a string. -/
def orString (a b : JsString) : JsString := if a = [] then b else a

/-- An API-key account does not stay under a system source. -/
def separate (providers : List (ProviderDefinition ρ)) (a : Account α) :
    List (ProviderDefinition ρ) × Account α :=
  match providers.find? fun p => p.id = a.providerId with
  | none => (providers, a)
  | some provider =>
    if provider.sourceType ≠ .oauthSystem then (providers, a)
    else
      let clone :=
        { provider with
          id := uniqueMigratedProviderId providers (provider.id ++ js "--api-" ++ a.id)
          name := orString a.name provider.name
          sourceType := inferProviderSourceType options provider.kind provider.baseUrl
          createdAt := orNumber a.createdAt options.timestamp
          updatedAt := options.timestamp }
      (providers ++ [clone], { a with providerId := clone.id })

def separateAll : List (ProviderDefinition ρ) → List (Account α) →
    List (ProviderDefinition ρ) × List (Account α)
  | providers, [] => (providers, [])
  | providers, a :: accounts =>
    let (providers, a) := if isApiKeyAccount a then separate options providers a else (providers, a)
    let (providers, accounts) := separateAll providers accounts
    (providers, a :: accounts)

/-- The API-key accounts of a source after the first one get copies of it; `hasOne` is whether
the first one has been seen. -/
def splitMembers (provider : ProviderDefinition ρ) :
    Bool → List (ProviderDefinition ρ) → List (Account α) →
      List (ProviderDefinition ρ) × List (Account α)
  | _, providers, [] => (providers, [])
  | hasOne, providers, a :: accounts =>
    if a.providerId = provider.id ∧ isApiKeyAccount a then
      if hasOne then
        let copy :=
          { provider with
            id := uniqueMigratedProviderId providers (provider.id ++ js "--account-" ++ a.id)
            name := orString a.name provider.name
            createdAt := orNumber a.createdAt provider.createdAt
            updatedAt := max provider.updatedAt a.updatedAt }
        let (providers, accounts) := splitMembers provider true (providers ++ [copy]) accounts
        (providers, { a with providerId := copy.id } :: accounts)
      else
        let (providers, accounts) := splitMembers provider true providers accounts
        (providers, a :: accounts)
    else
      let (providers, accounts) := splitMembers provider hasOne providers accounts
      (providers, a :: accounts)

def splitProvider (t : Topology ρ α) (provider : ProviderDefinition ρ) : Topology ρ α :=
  if provider.sourceType = .oauthSystem then t
  else
    let (providers, accounts) := splitMembers provider false t.providers t.accounts
    ⟨providers, accounts⟩

/-- All sources that were there before are split, one after another. -/
def splitAll (t : Topology ρ α) : Topology ρ α := t.providers.foldl splitProvider t

/-! ## The migration -/

def migrateSourceTopology (t : Topology ρ α) : Topology ρ α :=
  let (t, oauthIndex) := adopt (chatGptSource options) t
  let oauthProviderId := (oauthIndex.bind (t.providers[·]?)).map ProviderDefinition.id
  let (t, _) := adopt (grokSource options) t
  let (providers, accounts) := separateAll options t.providers t.accounts
  let t := splitAll ⟨providers, accounts⟩
  { t with
    providers := t.providers.filter fun p =>
      p.sourceType ≠ .oauthSystem || some p.id = oauthProviderId ||
        t.accounts.any fun a => a.providerId = p.id }

end StonePlus.SourceTopology
