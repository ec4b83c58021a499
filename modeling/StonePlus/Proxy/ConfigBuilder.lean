import StonePlus.Js.Json
import Mathlib.Data.List.Infix

/-!
# StonePlus.Proxy.ConfigBuilder

`buildSingBoxConfig` of `proxy/built-in/config-builder.ts`: the route that the
built-in core is given for a subscription profile, a rule mode and the user's own
rules.

The `match` part of a sing-box rule is the list of its entries, in the order in
which they are added.  DNS servers, the options of an outbound and the warnings
decide nothing of the route and are left out; `isIP` is a parameter.
-/

namespace StonePlus.Proxy.ConfigBuilder

/-! ## Profiles and rules -/

inductive InternalProxyRuleAction
  | proxy
  | direct
  | block
  deriving DecidableEq

inductive Network
  | tcp
  | udp
  deriving DecidableEq

def Network.text : Network → JsString
  | .tcp => js "tcp"
  | .udp => js "udp"

inductive RuleSetTag
  | geositeCn
  | geoipCn

/-- A rule of a subscription.  A key that is there may have an empty list. -/
structure InternalProxyRule where
  domains : Option (List JsString) := none
  domainSuffixes : Option (List JsString) := none
  domainKeywords : Option (List JsString) := none
  ipCidrs : Option (List JsString) := none
  ipIsPrivate : Option Bool := none
  ports : Option (List Nat) := none
  portRanges : Option (List JsString) := none
  networks : Option (List Network) := none
  protocols : Option (List JsString) := none
  ruleSetTags : Option (List RuleSetTag) := none
  action : InternalProxyRuleAction

inductive BuiltInProxyRuleCondition
  | domain
  | domainSuffix
  | domainKeyword
  | ipCidr
  | port
  | portRange
  | network
  | protocol
  | privateNetwork
  | mainlandChina
  deriving DecidableEq

/-- A rule of the user's own. -/
structure BuiltInProxyEditableRule where
  condition : BuiltInProxyRuleCondition
  values : List JsString
  action : InternalProxyRuleAction

structure BuiltInProxyCustomRuleSet where
  rules : List BuiltInProxyEditableRule

inductive BuiltInProxyRuleMode
  | rule
  | global
  | direct
  deriving DecidableEq

/-- A node of a profile, under the identifier that `stableNodeId` made for it. -/
structure InternalProxyNode where
  id : JsString
  stable : js "node-" <+: id
  serverPort : Nat

structure ParsedBuiltInProxyProfile where
  nodes : List InternalProxyNode
  rules : List InternalProxyRule

structure BuildSingBoxConfigInput where
  profile : ParsedBuiltInProxyProfile
  activeNodeId : Option JsString
  mode : BuiltInProxyRuleMode
  customRules : Option BuiltInProxyCustomRuleSet
  requiredProxyDomains : Option (List JsString)

inductive BuiltInProxyConfigErrorCode
  | invalidProfile
  | noActiveNode
  deriving DecidableEq

structure BuiltInProxyConfigError where
  code : BuiltInProxyConfigErrorCode
  message : JsString
  deriving DecidableEq

abbrev Result := Except BuiltInProxyConfigError

/-! ## sing-box routes -/

/-- An entry of the `match` part of a sing-box rule. -/
inductive Matcher
  | domain (values : List JsString)
  | domainSuffix (values : List JsString)
  | domainKeyword (values : List JsString)
  | ipCidr (values : List JsString)
  | ipIsPrivate (value : Bool)
  /-- `none` is `NaN`. -/
  | port (values : List (Option Nat))
  | portRange (values : List JsString)
  | network (values : List JsString)
  | protocol (values : List JsString)
  deriving DecidableEq

inductive SingBoxAction
  | route (outbound : JsString)
  | reject
  /-- Not final: the connection is inspected and the next rule is tried. -/
  | sniff
  deriving DecidableEq

structure SingBoxRule where
  matchers : List Matcher
  action : SingBoxAction
  deriving DecidableEq

structure SingBoxRoute where
  rules : List SingBoxRule
  final : JsString
  deriving DecidableEq

def directTag : JsString := js "stone-direct"

def requireProxyTag : Option JsString → Result JsString
  | some (c :: tag) => .ok (c :: tag)
  | _ => .error ⟨.noActiveNode, js "The selected profile has no active proxy node."⟩

def routeRule (matchers : List Matcher) (action : InternalProxyRuleAction)
    (proxyTag : Option JsString) : Result SingBoxRule :=
  match action with
  | .block => .ok ⟨matchers, .reject⟩
  | .direct => .ok ⟨matchers, .route directTag⟩
  | .proxy => do return ⟨matchers, .route (← requireProxyTag proxyTag)⟩

/-! ## Rules of the subscription -/

/-- Whether a key holds a list that is not empty. -/
def isPresent {α : Type} (values : Option (List α)) : Bool := values.any (!·.isEmpty)

/-- `Object.keys(rule).every((key) => key === 'action')`. -/
def isCatchAll (rule : InternalProxyRule) : Bool :=
  rule.domains.isNone && rule.domainSuffixes.isNone && rule.domainKeywords.isNone &&
    rule.ipCidrs.isNone && rule.ipIsPrivate.isNone && rule.ports.isNone &&
    rule.portRanges.isNone && rule.networks.isNone && rule.protocols.isNone &&
    rule.ruleSetTags.isNone

/-- A matcher for a list of values that is there and not empty. -/
def matcherOf {α : Type} (matcher : List α → Matcher) (values : Option (List α)) : List Matcher :=
  if isPresent values then [matcher (values.getD [])] else []

/-- The `match` of `convertRule`. -/
def ruleMatch (rule : InternalProxyRule) : List Matcher :=
  matcherOf .domain rule.domains ++ matcherOf .domainSuffix rule.domainSuffixes ++
    matcherOf .domainKeyword rule.domainKeywords ++ matcherOf .ipCidr rule.ipCidrs ++
    rule.ipIsPrivate.toList.map .ipIsPrivate ++
    matcherOf (fun ports => .port (ports.map some)) rule.ports ++
    matcherOf .portRange rule.portRanges ++
    matcherOf (fun networks => .network (networks.map Network.text)) rule.networks ++
    matcherOf .protocol rule.protocols

def convertRule (rule : InternalProxyRule) (proxyTag : Option JsString) : Result SingBoxRule :=
  routeRule (ruleMatch rule) rule.action proxyTag

def importedRuleRequiresSniff (rule : InternalProxyRule) : Bool :=
  isPresent rule.domains || isPresent rule.domainSuffixes || isPresent rule.domainKeywords ||
    isPresent rule.protocols

/-! ## Rules of the user's own -/

/-- `Number` of a decimal numeral. -/
def numeral? (text : JsString) : Option Nat :=
  if text ≠ [] ∧ text.all Json.isDigit then some (Json.digitsValue text) else none

def overlayMatch (rule : BuiltInProxyEditableRule) : Result (List Matcher) :=
  match rule.condition with
  | .domain => .ok [.domain rule.values]
  | .domainSuffix => .ok [.domainSuffix rule.values]
  | .domainKeyword => .ok [.domainKeyword rule.values]
  | .ipCidr => .ok [.ipCidr rule.values]
  | .port => .ok [.port (rule.values.map numeral?)]
  | .portRange => .ok [.portRange rule.values]
  | .network => .ok [.network rule.values]
  | .protocol => .ok [.protocol rule.values]
  | .privateNetwork => .ok [.ipIsPrivate true]
  | .mainlandChina =>
    .error ⟨.invalidProfile, js "The custom rule overlay contains an unsupported condition."⟩

def convertOverlayRule (rule : BuiltInProxyEditableRule) (proxyTag : Option JsString) :
    Result SingBoxRule := do
  routeRule (← overlayMatch rule) rule.action proxyTag

/-- What a rule of the user's own says of a bare domain. -/
def overlayDomainRule (rule : BuiltInProxyEditableRule) : List InternalProxyRule :=
  match rule.condition with
  | .domain => [{ domains := some rule.values, action := rule.action }]
  | .domainSuffix => [{ domainSuffixes := some rule.values, action := rule.action }]
  | .domainKeyword => [{ domainKeywords := some rule.values, action := rule.action }]
  | _ => []

def overlayRuleRequiresSniff (rule : BuiltInProxyEditableRule) : Bool :=
  match rule.condition with
  | .domain | .domainSuffix | .domainKeyword | .protocol => true
  | _ => false

/-- The rules that can be honoured: there are no geographic rule sets. -/
def resolveCustomOverlay (customRules : Option BuiltInProxyCustomRuleSet) :
    List BuiltInProxyEditableRule :=
  ((customRules.map BuiltInProxyCustomRuleSet.rules).getD []).filter (·.condition ≠ .mainlandChina)

/-! ## Required domains -/

def builtInRequiredProxyDomains : List JsString :=
  [js "openai.com", js "chatgpt.com", js "anthropic.com", js "claude.ai", js "claude.com",
    js "x.ai", js "grok.com", js "cli-chat-proxy.grok.com", js "generativelanguage.googleapis.com",
    js "aiplatform.googleapis.com", js "oauth2.googleapis.com", js "cloudcode-pa.googleapis.com"]

def isLoopback (address : JsString) : Bool :=
  address == js "::1" || (js "127.").isPrefixOf address

def isAlphanumeric (c : UInt16) : Bool := Json.isLetter c || Json.isDigit c

/-- `/^[a-z0-9](?:[a-z0-9-]{0,61}[a-z0-9])?$/`. -/
def isLabel (label : JsString) : Bool :=
  label.head?.any isAlphanumeric && label.getLast?.any isAlphanumeric && label.length ≤ 63 &&
    label.all fun c => isAlphanumeric c || c == 0x2D

/-- `replace(/^\.+|\.+$/g, '')`. -/
def stripDots (domain : JsString) : JsString :=
  ((domain.dropWhile (· == 0x2E)).reverse.dropWhile (· == 0x2E)).reverse

def normalizeRequiredProxyDomains (isIP : JsString → Nat) (value : Option (List JsString)) :
    List JsString :=
  let candidates := builtInRequiredProxyDomains ++ value.getD []
  ((candidates.map fun domain => stripDots (toLowerCase domain.trim)).eraseDups).filter
    fun domain => domain.length > 0 && domain.length ≤ 253 && isIP domain == 0 &&
      !isLoopback domain && (domain.splitOn 0x2E).all isLabel

/-- Whether one of the values is there that matches, where there are any. -/
def matchesSome (values : Option (List JsString)) (holds : JsString → Bool) : Bool :=
  !isPresent values || (values.getD []).any holds

def ruleMatchesDomainWithoutExtraConditions (rule : InternalProxyRule) (domain : JsString) : Bool :=
  if isPresent rule.ipCidrs || rule.ipIsPrivate.isSome || isPresent rule.ports ||
      isPresent rule.portRanges || isPresent rule.networks || isPresent rule.protocols ||
      isPresent rule.ruleSetTags then false
  else if isCatchAll rule then true
  else
    matchesSome rule.domains (fun candidate => toLowerCase candidate == domain) &&
      matchesSome rule.domainSuffixes (fun suffix =>
        let normalized := if (toLowerCase suffix).head? = some 0x2E then (toLowerCase suffix).tail
          else toLowerCase suffix
        domain == normalized || (0x2E :: normalized).isSuffixOf domain) &&
      matchesSome rule.domainKeywords (fun keyword => decide (toLowerCase keyword <:+: domain)) &&
      (isPresent rule.domains || isPresent rule.domainSuffixes || isPresent rule.domainKeywords)

def isDomainGuaranteedProxy (domain : JsString) (rules : List InternalProxyRule)
    (finalAction : InternalProxyRuleAction) : Bool :=
  ((rules.find? (ruleMatchesDomainWithoutExtraConditions · domain)).map (·.action)).getD
    finalAction == .proxy

/-! ## The route -/

inductive RoutePolicy
  | preserved
  | fallback
  | global
  | direct
  deriving DecidableEq

/-- The rules that have been added, and `sniffActionAdded`. -/
structure PolicyRules where
  rules : List SingBoxRule
  sniffActionAdded : Bool

/-- Inspection is added where the first rule needs it. -/
def pushPolicyRule (s : PolicyRules) (rule : SingBoxRule) (requiresSniff : Bool) : PolicyRules :=
  if requiresSniff && !s.sniffActionAdded then ⟨s.rules ++ [⟨[], .sniff⟩, rule], true⟩
  else ⟨s.rules ++ [rule], s.sniffActionAdded⟩

def policyRules (importedRules : List InternalProxyRule) (policy : RoutePolicy) :
    List InternalProxyRule :=
  if policy = .preserved then importedRules else []

/-- What becomes of a connection that no rule matches: the last catch-all of the
subscription that does not block says so. -/
def finalAction (importedRules : List InternalProxyRule) (policy : RoutePolicy) :
    InternalProxyRuleAction :=
  match policy with
  | .direct => .direct
  | .preserved =>
    ((importedRules.reverse.find? fun candidate =>
      isCatchAll candidate && candidate.action ≠ .block).map (·.action)).getD .proxy
  | _ => .proxy

/-- The required domains that the rules and the final action may divert. -/
def missingDomains (importedRules : List InternalProxyRule) (policy : RoutePolicy)
    (requiredProxyDomains : List JsString) (overlayRules : List BuiltInProxyEditableRule) :
    List JsString :=
  let decisiveRules := overlayRules.flatMap overlayDomainRule ++ policyRules importedRules policy
  requiredProxyDomains.filter
    (!isDomainGuaranteedProxy · decisiveRules (finalAction importedRules policy))

/-- A catch-all of the subscription is the final action and no rule, unless it
blocks. -/
def keptRules (importedRules : List InternalProxyRule) (policy : RoutePolicy) :
    List InternalProxyRule :=
  (policyRules importedRules policy).filter fun rule => !(isCatchAll rule && rule.action ≠ .block)

def localhostMatch : List Matcher := [.domain [js "localhost"], .domainSuffix [js ".localhost"]]

def loopbackMatch : List Matcher := [.ipCidr [js "127.0.0.0/8", js "::1/128"]]

/-- The mandatory rule, ahead of all rules that may divert. -/
def pinMissingDomains (s : PolicyRules) (policy : RoutePolicy) (missing : List JsString)
    (proxyTag : Option JsString) : Result PolicyRules :=
  if policy ≠ .direct ∧ missing ≠ [] then do
    return pushPolicyRule s (← routeRule [.domainSuffix missing] .proxy proxyTag) true
  else .ok s

def buildRoute (importedRules : List InternalProxyRule) (policy : RoutePolicy)
    (proxyTag : Option JsString) (requiredProxyDomains : List JsString)
    (overlayRules : List BuiltInProxyEditableRule) : Result SingBoxRoute := do
  let loopback : PolicyRules :=
    ⟨[← routeRule localhostMatch .direct proxyTag, ← routeRule loopbackMatch .direct proxyTag],
      false⟩
  let pinned ← pinMissingDomains loopback policy
    (missingDomains importedRules policy requiredProxyDomains overlayRules) proxyTag
  -- the user's rules come behind the mandatory ones and before the subscription
  let overlaid ← overlayRules.foldlM (fun s rule => do
    return pushPolicyRule s (← convertOverlayRule rule proxyTag) (overlayRuleRequiresSniff rule))
    pinned
  let s ← (keptRules importedRules policy).foldlM (fun s rule => do
    return pushPolicyRule s (← convertRule rule proxyTag) (importedRuleRequiresSniff rule))
    overlaid
  let final ← if finalAction importedRules policy = .direct then .ok directTag
    else requireProxyTag proxyTag
  return ⟨s.rules, final⟩

/-! ## The configuration -/

structure BuildSingBoxConfigResult where
  route : SingBoxRoute
  /-- The tags of the outbounds. -/
  outbounds : List JsString
  activeNodeId : Option JsString
  activeOutboundTag : Option JsString
  outboundTags : List (JsString × JsString)
  requestedNodeMissing : Bool
  routePolicy : RoutePolicy
  deriving DecidableEq

def validateProfileShape (profile : ParsedBuiltInProxyProfile) : Result Unit :=
  if profile.nodes.any fun node => node.serverPort < 1 || node.serverPort > 65535 then
    .error ⟨.invalidProfile, js "The decrypted proxy profile contains an invalid node."⟩
  else .ok ()

/-- `[A-Za-z0-9_-]`. -/
def isTagCharacter (c : UInt16) : Bool :=
  isAlphanumeric c || (0x41 ≤ c && c ≤ 0x5A) || c == 0x5F || c == 0x2D

def outboundTagForNodeId (nodeId : JsString) : Result JsString :=
  let kept := nodeId.filter isTagCharacter
  let suffix := kept.drop (kept.length - 32)
  if suffix = [] then
    .error ⟨.invalidProfile, js "The active proxy node identifier is invalid."⟩
  else .ok (js "stone-" ++ suffix)

/-- The rules that need no external database. -/
def importedRules (profile : ParsedBuiltInProxyProfile) : List InternalProxyRule :=
  profile.rules.filter fun rule => !isPresent rule.ruleSetTags

def selectedPolicy (input : BuildSingBoxConfigInput) : RoutePolicy :=
  match input.mode with
  | .direct => .direct
  | .global => .global
  | .rule => if importedRules input.profile = [] then .fallback else .preserved

/-- The node that is asked for, else the first one. -/
def activeNode (input : BuildSingBoxConfigInput) : Option InternalProxyNode :=
  match input.activeNodeId with
  | some (c :: requested) =>
    (input.profile.nodes.find? (·.id == c :: requested)).or input.profile.nodes.head?
  | _ => input.profile.nodes.head?

def needsProxy (input : BuildSingBoxConfigInput) : Bool :=
  input.mode ≠ .direct || (resolveCustomOverlay input.customRules).any (·.action == .proxy)

def buildSingBoxConfig (isIP : JsString → Nat) (input : BuildSingBoxConfigInput) :
    Result BuildSingBoxConfigResult := do
  validateProfileShape input.profile
  let overlayRules := resolveCustomOverlay input.customRules
  let active := activeNode input
  let requested := input.activeNodeId.filter (!·.isEmpty)
  let requestedNodeMissing := requested.isSome && active.map (·.id) != requested
  if needsProxy input && active.isNone then
    .error ⟨.noActiveNode, js "The selected profile has no active proxy node."⟩
  let outboundTags ← input.profile.nodes.mapM fun node => do
    return (node.id, ← outboundTagForNodeId node.id)
  let activeTag := active.bind fun node => outboundTags.lookup node.id
  let nodeOutbounds := if needsProxy input then outboundTags.map Prod.snd else []
  let route ← buildRoute (importedRules input.profile) (selectedPolicy input) activeTag
    (normalizeRequiredProxyDomains isIP input.requiredProxyDomains) overlayRules
  let requestedNode := requested.filter fun id => input.profile.nodes.any (·.id == id)
  return {
    route
    outbounds := nodeOutbounds ++ [directTag]
    activeNodeId := if needsProxy input then active.map (·.id)
      else requestedNode.or (active.map (·.id))
    activeOutboundTag := if needsProxy input then activeTag else none
    outboundTags := if needsProxy input then outboundTags else []
    requestedNodeMissing
    routePolicy := selectedPolicy input }

end StonePlus.Proxy.ConfigBuilder
