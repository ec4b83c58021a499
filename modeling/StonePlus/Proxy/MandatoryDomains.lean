import StonePlus.Lib.Except
import StonePlus.Proxy.ConfigBuilder

/-!
# StonePlus.Proxy.MandatoryDomains

What the route that is built does with a connection to a required domain.

sing-box tries the rules in order and the first that matches decides.  How it
combines the matchers of a rule is a parameter, of which the build relies only on
this: a rule with one matcher is decided by that one.  A connection whose
destination is a host name matches no address.
-/

namespace StonePlus.Proxy.ConfigBuilder

/-! ## How sing-box reads a route -/

inductive Family
  | domain
  | domainSuffix
  | domainKeyword
  | ipCidr
  | ipIsPrivate
  | port
  | portRange
  | network
  | protocol
  deriving DecidableEq

def Matcher.family : Matcher → Family
  | .domain _ => .domain
  | .domainSuffix _ => .domainSuffix
  | .domainKeyword _ => .domainKeyword
  | .ipCidr _ => .ipCidr
  | .ipIsPrivate _ => .ipIsPrivate
  | .port _ => .port
  | .portRange _ => .portRange
  | .network _ => .network
  | .protocol _ => .protocol

/-- A connection to a host name; `protocol` is what inspecting it would tell. -/
structure Connection where
  host : JsString
  port : Nat
  network : Network
  protocol : Option JsString

/-- A suffix with a leading dot is matched as it is; any other is a domain, which
matches itself and what is below it. -/
def hostHasSuffix (host suffix : JsString) : Bool :=
  if suffix.head? = some 0x2E then suffix.isSuffixOf host
  else host == suffix || (0x2E :: suffix).isSuffixOf host

def inPortRange (port : Nat) (range : JsString) : Bool :=
  match range.splitOn 0x3A with
  | [first, last] => (numeral? first).any (· ≤ port) && (numeral? last).any (port ≤ ·)
  | _ => false

def Matcher.holds (sniffed : Bool) (connection : Connection) : Matcher → Bool
  | .domain values => values.contains connection.host
  | .domainSuffix values => values.any (hostHasSuffix connection.host)
  | .domainKeyword values => values.any fun keyword => decide (keyword <:+: connection.host)
  | .ipCidr _ => false
  | .ipIsPrivate _ => false
  | .port values => values.contains (some connection.port)
  | .portRange values => values.any (inPortRange connection.port)
  | .network values => values.contains connection.network.text
  | .protocol values => sniffed && connection.protocol.any values.contains

/-- How the matchers of a rule make up the rule. -/
structure SingBox where
  combine : List (Family × Bool) → Bool
  combine_single : ∀ family holds, combine [(family, holds)] = holds

/-- All matchers of a rule must match. -/
def conjunctive : SingBox where
  combine results := results.all Prod.snd
  combine_single := by simp

variable (box : SingBox) (connection : Connection)

/-- A rule without matchers matches everything. -/
def SingBox.matches (sniffed : Bool) (matchers : List Matcher) : Bool :=
  matchers.isEmpty ||
    box.combine (matchers.map fun matcher => (matcher.family, matcher.holds sniffed connection))

inductive Outcome
  | outbound (tag : JsString)
  | rejected
  deriving DecidableEq

/-- How far a connection has come through the rules. -/
structure Walk where
  sniffed : Bool
  outcome : Option Outcome

def SingBox.tryRule (walk : Walk) (rule : SingBoxRule) : Walk :=
  match rule.action with
  | .sniff => { walk with sniffed := walk.sniffed || box.matches connection walk.sniffed rule.matchers }
  | .route outbound =>
    if walk.outcome.isNone && box.matches connection walk.sniffed rule.matchers then
      { walk with outcome := some (.outbound outbound) } else walk
  | .reject =>
    if walk.outcome.isNone && box.matches connection walk.sniffed rule.matchers then
      { walk with outcome := some .rejected } else walk

def SingBox.walk (rules : List SingBoxRule) : Walk :=
  rules.foldl (box.tryRule connection) ⟨false, none⟩

def SingBox.evaluate (route : SingBoxRoute) : Outcome :=
  (box.walk connection route.rules).outcome.getD (.outbound route.final)

/-! ## What the rules say by themselves -/

/-- The matchers of a rule of the user's own. -/
def overlayMatchers (rule : BuiltInProxyEditableRule) : List Matcher :=
  (overlayMatch rule).toOption.getD []

/-- The rules that come behind the mandatory one: the user's own, then the
subscription's. -/
def laterRules (input : BuildSingBoxConfigInput) : List (List Matcher × InternalProxyRuleAction) :=
  (resolveCustomOverlay input.customRules).map (fun rule => (overlayMatchers rule, rule.action)) ++
    (keptRules (importedRules input.profile) (selectedPolicy input)).map
      fun rule => (ruleMatch rule, rule.action)

/-- The action of the first rule that matches. -/
def SingBox.firstAction (rules : List (List Matcher × InternalProxyRuleAction)) :
    Option InternalProxyRuleAction :=
  (rules.find? fun rule => box.matches connection true rule.1).map Prod.snd

/-- The host is the domain or below it. -/
def AtOrBelow (host domain : JsString) : Prop := host = domain ∨ 0x2E :: domain <:+ host

instance (host domain : JsString) : Decidable (AtOrBelow host domain) :=
  inferInstanceAs (Decidable (_ ∨ _))

variable (isIP : JsString → Nat) (input : BuildSingBoxConfigInput)

/-- The domains to which mandatory routing applies. -/
def requiredDomains : List JsString :=
  normalizeRequiredProxyDomains isIP input.requiredProxyDomains

/-- A required domain at or above the host is one that the rules, as they are read
for bare domains, do not send to the proxy. -/
def IsPinned : Prop :=
  ∃ domain ∈ requiredDomains isIP input, AtOrBelow connection.host domain ∧
    isDomainGuaranteedProxy domain
      ((resolveCustomOverlay input.customRules).flatMap overlayDomainRule ++
        policyRules (importedRules input.profile) (selectedPolicy input))
      (finalAction (importedRules input.profile) (selectedPolicy input)) = false

instance : Decidable (IsPinned connection isIP input) :=
  inferInstanceAs (Decidable (∃ domain ∈ _, _))

/-- The host is no name of this machine, and it is pinned or the first rule that
matches the whole connection sends it to the proxy. -/
def StaysProxied : Prop :=
  box.matches connection true localhostMatch = false ∧
    (IsPinned connection isIP input ∨
      (box.firstAction connection (laterRules input)).getD
        (finalAction (importedRules input.profile) (selectedPolicy input)) = .proxy)

/-! ## Rules as they are pushed -/

def actionOf (tag : JsString) : InternalProxyRuleAction → SingBoxAction
  | .proxy => .route tag
  | .direct => .route directTag
  | .block => .reject

def outcomeOf (tag : JsString) : InternalProxyRuleAction → Outcome
  | .proxy => .outbound tag
  | .direct => .outbound directTag
  | .block => .rejected

def Matcher.isProtocol : Matcher → Bool
  | .protocol _ => true
  | _ => false

theorem requireProxyTag_eq_ok {proxyTag : Option JsString} {tag : JsString}
    (h : requireProxyTag proxyTag = .ok tag) : proxyTag = some tag := by
  unfold requireProxyTag at h
  split at h
  · injection h with h
    rw [h]
  · cases h

theorem routeRule_eq_ok {matchers : List Matcher}
    (h : routeRule matchers action (some tag) = .ok rule) :
    rule = ⟨matchers, actionOf tag action⟩ := by
  cases action with
  | proxy =>
      obtain ⟨tag', htag, hrule⟩ := Lib.bind_eq_ok.mp h
      have := requireProxyTag_eq_ok htag
      simp only [Option.some.injEq] at this
      subst this
      injection hrule with hrule
      exact hrule.symm
  | direct =>
      injection h with h
      exact h.symm
  | block =>
      injection h with h
      exact h.symm

variable {box connection}

/-- Only a protocol has to be inspected. -/
theorem matches_sniffed {matchers : List Matcher} (h : ∀ m ∈ matchers, m.isProtocol = false)
    (sniffed : Bool) :
    box.matches connection sniffed matchers = box.matches connection true matchers := by
  have hholds : ∀ m ∈ matchers, (m.family, m.holds sniffed connection) =
      (m.family, m.holds true connection) := by
    intro m hm
    cases m with
    | protocol values => simp [Matcher.isProtocol] at h; exact absurd (h _ hm) (by simp)
    | _ => rfl
  simp only [SingBox.matches, List.map_congr_left hholds]

theorem matches_single (sniffed : Bool) (matcher : Matcher) :
    box.matches connection sniffed [matcher] = matcher.holds sniffed connection := by
  simp [SingBox.matches, box.combine_single]

/-- The rules that have been pushed decide as the given list does. -/
structure Reads (box : SingBox) (connection : Connection) (tag : JsString) (s : PolicyRules)
    (rules : List (List Matcher × InternalProxyRuleAction)) : Prop where
  sniffed : (box.walk connection s.rules).sniffed = s.sniffActionAdded
  outcome : (box.walk connection s.rules).outcome =
    (box.firstAction connection rules).map (outcomeOf tag)

theorem walk_append (rules rules' : List SingBoxRule) :
    box.walk connection (rules ++ rules') = rules'.foldl (box.tryRule connection)
      (box.walk connection rules) := by
  simp [SingBox.walk]

theorem firstAction_append (rules rules' : List (List Matcher × InternalProxyRuleAction)) :
    box.firstAction connection (rules ++ rules') =
      (box.firstAction connection rules).or (box.firstAction connection rules') := by
  simp [SingBox.firstAction, List.find?_append, Option.map_or]

theorem firstAction_single (rule : List Matcher × InternalProxyRuleAction) :
    box.firstAction connection [rule] =
      if box.matches connection true rule.1 then some rule.2 else none := by
  cases h : box.matches connection true rule.1 <;> simp [SingBox.firstAction, h]

theorem tryRule_actionOf (walk : Walk) (tag : JsString) (matchers : List Matcher)
    (action : InternalProxyRuleAction) :
    box.tryRule connection walk ⟨matchers, actionOf tag action⟩ =
      ⟨walk.sniffed, walk.outcome.or
        (if box.matches connection walk.sniffed matchers then some (outcomeOf tag action) else none)⟩ := by
  obtain ⟨sniffed, outcome⟩ := walk
  cases hmatches : box.matches connection sniffed matchers <;> cases outcome <;> cases action <;>
    simp [SingBox.tryRule, actionOf, outcomeOf, hmatches]

variable {tag : JsString} {s : PolicyRules} {rules : List (List Matcher × InternalProxyRuleAction)}

/-- Whoever asks for inspection gets it before the rule is tried. -/
theorem reads_push (h : Reads box connection tag s rules) {matchers : List Matcher}
    {action : InternalProxyRuleAction} {requiresSniff : Bool}
    (hsniff : requiresSniff = false → ∀ m ∈ matchers, m.isProtocol = false) :
    Reads box connection tag (pushPolicyRule s ⟨matchers, actionOf tag action⟩ requiresSniff)
      (rules ++ [(matchers, action)]) := by
  have hadded : ∀ w : Walk, w.outcome = (box.firstAction connection rules).map (outcomeOf tag) →
      box.matches connection w.sniffed matchers = box.matches connection true matchers →
      (box.tryRule connection w ⟨matchers, actionOf tag action⟩).outcome =
        (box.firstAction connection (rules ++ [(matchers, action)])).map (outcomeOf tag) := by
    intro w hw hmatches
    rw [tryRule_actionOf, hmatches, hw, firstAction_append, firstAction_single]
    cases box.firstAction connection rules <;>
      cases box.matches connection true matchers <;> simp
  by_cases hpush : requiresSniff = true ∧ s.sniffActionAdded = false
  · obtain ⟨hrequires, hnot⟩ := hpush
    have hsniffing : box.tryRule connection (box.walk connection s.rules) ⟨[], .sniff⟩ =
        ⟨true, (box.walk connection s.rules).outcome⟩ := by
      simp [SingBox.tryRule, SingBox.matches]
    constructor
    · simp [pushPolicyRule, hrequires, hnot, walk_append, hsniffing, tryRule_actionOf]
    · simp only [pushPolicyRule, hrequires, hnot, walk_append, Bool.not_false, Bool.and_self,
        if_true, List.foldl_cons, List.foldl_nil, hsniffing]
      exact hadded _ h.outcome rfl
  · have hpushed : pushPolicyRule s ⟨matchers, actionOf tag action⟩ requiresSniff =
        ⟨s.rules ++ [⟨matchers, actionOf tag action⟩], s.sniffActionAdded⟩ := by
      cases requiresSniff <;> cases hs : s.sniffActionAdded <;> simp_all [pushPolicyRule]
    have hmatches : box.matches connection (box.walk connection s.rules).sniffed matchers =
        box.matches connection true matchers := by
      cases hrequires : requiresSniff with
      | false => exact matches_sniffed (hsniff hrequires) _
      | true =>
          have hsniffed : s.sniffActionAdded = true := by simpa [hrequires] using hpush
          rw [h.sniffed, hsniffed]
    rw [hpushed]
    constructor
    · simp [walk_append, tryRule_actionOf, h.sniffed]
    · simpa only [walk_append, List.foldl_cons, List.foldl_nil] using hadded _ h.outcome hmatches

/-- Pushing a list of rules, each as it is converted. -/
theorem reads_foldlM {α : Type} {convert : α → Result SingBoxRule} {requires : α → Bool}
    {matchersOf : α → List Matcher} {act : α → InternalProxyRuleAction}
    (hconvert : ∀ a rule, convert a = .ok rule → rule = ⟨matchersOf a, actionOf tag (act a)⟩)
    (hsniff : ∀ a, requires a = false → ∀ m ∈ matchersOf a, m.isProtocol = false)
    {added : List α} {s s' : PolicyRules}
    {rules : List (List Matcher × InternalProxyRuleAction)} (h : Reads box connection tag s rules)
    (hfold : added.foldlM (fun s a => do return pushPolicyRule s (← convert a) (requires a)) s =
      .ok s') :
    Reads box connection tag s' (rules ++ added.map fun a => (matchersOf a, act a)) := by
  induction added generalizing s rules with
  | nil =>
      injection hfold with hfold
      simpa [hfold] using h
  | cons a added ih =>
      rw [List.foldlM_cons] at hfold
      obtain ⟨pushed, hpushed, hrest⟩ := Lib.bind_eq_ok.mp hfold
      obtain ⟨rule, hrule, hreturn⟩ := Lib.bind_eq_ok.mp hpushed
      injection hreturn with hreturn
      subst hreturn
      rw [hconvert a rule hrule] at hrest
      have := ih (reads_push h (hsniff a)) hrest
      simpa using this

/-! ## The conversions -/

theorem convertRule_eq_ok {rule : InternalProxyRule} {converted : SingBoxRule}
    (h : convertRule rule (some tag) = .ok converted) :
    converted = ⟨ruleMatch rule, actionOf tag rule.action⟩ :=
  routeRule_eq_ok h

theorem convertOverlayRule_eq_ok {rule : BuiltInProxyEditableRule} {converted : SingBoxRule}
    (h : convertOverlayRule rule (some tag) = .ok converted) :
    converted = ⟨overlayMatchers rule, actionOf tag rule.action⟩ := by
  obtain ⟨matchers, hmatch, hroute⟩ := Lib.bind_eq_ok.mp h
  have hmatchers : overlayMatchers rule = matchers := by
    simp [overlayMatchers, hmatch, Except.toOption]
  rw [hmatchers]
  exact routeRule_eq_ok hroute

theorem not_isProtocol_of_matcherOf {α : Type} {matcher : List α → Matcher}
    (hmatcher : ∀ values, (matcher values).isProtocol = false) {values : Option (List α)}
    (hm : m ∈ matcherOf matcher values) : m.isProtocol = false := by
  unfold matcherOf at hm
  split at hm
  · rw [List.mem_singleton.mp hm]
    exact hmatcher _
  · simp at hm

/-- A rule of the subscription that asks for no inspection has no protocol. -/
theorem not_isProtocol_of_ruleMatch {rule : InternalProxyRule}
    (h : importedRuleRequiresSniff rule = false) : ∀ m ∈ ruleMatch rule, m.isProtocol = false := by
  intro m hm
  simp only [importedRuleRequiresSniff, Bool.or_eq_false_iff] at h
  simp only [ruleMatch, List.mem_append, or_assoc] at hm
  rcases hm with hm | hm | hm | hm | hm | hm | hm | hm | hm
  · exact not_isProtocol_of_matcherOf (fun _ => rfl) hm
  · exact not_isProtocol_of_matcherOf (fun _ => rfl) hm
  · exact not_isProtocol_of_matcherOf (fun _ => rfl) hm
  · exact not_isProtocol_of_matcherOf (fun _ => rfl) hm
  · obtain ⟨value, -, rfl⟩ := List.mem_map.mp hm
    rfl
  · exact not_isProtocol_of_matcherOf (fun _ => rfl) hm
  · exact not_isProtocol_of_matcherOf (fun _ => rfl) hm
  · exact not_isProtocol_of_matcherOf (fun _ => rfl) hm
  · simp [matcherOf, h.2] at hm

/-- Nor has a rule of the user's own. -/
theorem not_isProtocol_of_overlayMatchers {rule : BuiltInProxyEditableRule}
    (h : overlayRuleRequiresSniff rule = false) :
    ∀ m ∈ overlayMatchers rule, m.isProtocol = false := by
  intro m hm
  unfold overlayMatchers overlayMatch at hm
  unfold overlayRuleRequiresSniff at h
  cases hcondition : rule.condition <;> simp_all [Except.toOption, Matcher.isProtocol]

/-! ## The route that is built -/

theorem reads_nil : Reads box connection tag ⟨[], false⟩ [] := ⟨rfl, rfl⟩

/-- The mandatory rule, where there is one. -/
def pinnedRules (policy : RoutePolicy) (missing : List JsString) :
    List (List Matcher × InternalProxyRuleAction) :=
  if policy ≠ .direct ∧ missing ≠ [] then [([.domainSuffix missing], .proxy)] else []

variable {policy : RoutePolicy}

theorem reads_pinMissingDomains {missing : List JsString} (h : Reads box connection tag s rules)
    (hpin : pinMissingDomains s policy missing (some tag) = .ok s') :
    Reads box connection tag s' (rules ++ pinnedRules policy missing) := by
  unfold pinMissingDomains at hpin
  by_cases hmissing : policy ≠ .direct ∧ missing ≠ []
  · rw [if_pos hmissing] at hpin
    obtain ⟨rule, hrule, hreturn⟩ := Lib.bind_eq_ok.mp hpin
    injection hreturn with hreturn
    rw [← hreturn, routeRule_eq_ok hrule, pinnedRules, if_pos hmissing]
    exact reads_push h fun hfalse => by cases hfalse
  · rw [if_neg hmissing] at hpin
    injection hpin with hpin
    rw [← hpin, pinnedRules, if_neg hmissing, List.append_nil]
    exact h

theorem finalAction_ne_block (imported : List InternalProxyRule) (policy : RoutePolicy) :
    finalAction imported policy ≠ .block := by
  unfold finalAction
  cases policy with
  | preserved =>
      cases hfind : imported.reverse.find? fun candidate =>
          isCatchAll candidate && candidate.action ≠ .block with
      | none => simp
      | some rule =>
          have := List.find?_some hfind
          simp_all
  | _ => simp

/-- The last step of `buildRoute`. -/
theorem route_final {imported : List InternalProxyRule} {rules : List SingBoxRule}
    {route : SingBoxRoute}
    (h : (do
      let final ← if finalAction imported policy = .direct then .ok directTag
        else requireProxyTag (some tag)
      return ⟨rules, final⟩ : Result SingBoxRoute) = .ok route) :
    route.rules = rules ∧ Outcome.outbound route.final = outcomeOf tag (finalAction imported policy) := by
  have hblock := finalAction_ne_block imported policy
  split at h
  · rename_i hdirect
    injection h with h
    rw [hdirect, ← h]
    exact ⟨rfl, rfl⟩
  · rename_i hdirect
    obtain ⟨final, hfinal, h⟩ := Lib.bind_eq_ok.mp h
    injection h with h
    have htag : some tag = some final := requireProxyTag_eq_ok hfinal
    injection htag with htag
    rw [← h]
    cases haction : finalAction imported policy with
    | proxy => exact ⟨rfl, by rw [outcomeOf, htag]⟩
    | direct => exact absurd haction hdirect
    | block => exact absurd haction hblock

/-- The route does what its rules say one after the other: loopback, the mandatory
domains, the user's own rules, the subscription's, and the final action. -/
theorem evaluate_buildRoute {imported : List InternalProxyRule}
    (h : buildRoute imported policy (some tag) required overlay = .ok route) :
    box.evaluate connection route = outcomeOf tag
      ((box.firstAction connection ([(localhostMatch, .direct), (loopbackMatch, .direct)] ++
        pinnedRules policy (missingDomains imported policy required overlay) ++
        overlay.map (fun rule => (overlayMatchers rule, rule.action)) ++
        (keptRules imported policy).map fun rule => (ruleMatch rule, rule.action))).getD
        (finalAction imported policy)) := by
  obtain ⟨localhost, hlocalhost, h⟩ := Lib.bind_eq_ok.mp h
  obtain ⟨loopback, hloopback, h⟩ := Lib.bind_eq_ok.mp h
  obtain ⟨pinned, hpinned, h⟩ := Lib.bind_eq_ok.mp h
  obtain ⟨overlaid, hoverlaid, h⟩ := Lib.bind_eq_ok.mp h
  obtain ⟨s, hs, h⟩ := Lib.bind_eq_ok.mp h
  obtain ⟨hrules, hfinal⟩ := route_final h
  have hstart : Reads box connection tag ⟨[localhost, loopback], false⟩
      [(localhostMatch, .direct), (loopbackMatch, .direct)] := by
    rw [routeRule_eq_ok hlocalhost, routeRule_eq_ok hloopback]
    have hfirst : Reads box connection tag _ _ :=
      @reads_push box connection tag _ _ reads_nil localhostMatch .direct false
        (by simp [localhostMatch, Matcher.isProtocol])
    exact @reads_push box connection tag _ _ hfirst loopbackMatch .direct false
      (by simp [loopbackMatch, Matcher.isProtocol])
  have hreads := reads_foldlM (fun _ _ => convertRule_eq_ok)
    (fun _ hrequires => not_isProtocol_of_ruleMatch hrequires)
    (reads_foldlM (fun _ _ => convertOverlayRule_eq_ok)
      (fun _ hrequires => not_isProtocol_of_overlayMatchers hrequires)
      (reads_pinMissingDomains hstart hpinned) hoverlaid) hs
  rw [SingBox.evaluate, hrules, hreads.outcome, hfinal]
  exact Option.getD_map _ _ _

/-! ## Hosts and domains -/

theorem head?_ne_dot_of_stripDots (domain : JsString) : (stripDots domain).head? ≠ some 0x2E := by
  intro h
  have hstart : stripDots domain <+: domain.dropWhile (· == 0x2E) := by
    have := List.dropWhile_suffix (fun c : UInt16 => c == 0x2E)
      (l := (domain.dropWhile (· == 0x2E)).reverse)
    rw [← List.reverse_prefix, List.reverse_reverse] at this
    exact this
  obtain ⟨rest, hrest⟩ := hstart
  have hhead : (domain.dropWhile (· == 0x2E)).head? = some 0x2E := by
    rw [← hrest, List.head?_append, h]
    rfl
  have hne : domain.dropWhile (· == 0x2E) ≠ [] := by
    intro hnil
    rw [hnil] at hhead
    cases hhead
  have hnot := List.head_dropWhile_not (fun c : UInt16 => c == 0x2E) hne
  rw [List.head?_eq_some_head hne] at hhead
  injection hhead with hhead
  simp [hhead] at hnot

variable {isIP : JsString → Nat}

theorem head?_ne_dot_of_required {value : Option (List JsString)}
    (h : domain ∈ normalizeRequiredProxyDomains isIP value) : domain.head? ≠ some 0x2E := by
  simp only [normalizeRequiredProxyDomains, List.mem_filter, List.mem_eraseDups,
    List.mem_map] at h
  obtain ⟨⟨candidate, -, rfl⟩, -⟩ := h
  exact head?_ne_dot_of_stripDots _

theorem hostHasSuffix_iff {host domain : JsString} (h : domain.head? ≠ some 0x2E) :
    hostHasSuffix host domain = true ↔ AtOrBelow host domain := by
  simp [hostHasSuffix, h, AtOrBelow]

/-! ## Tags -/

/-- The identifier of a node makes no tag that is that of the direct outbound. -/
theorem ne_directTag_of_stable {node : InternalProxyNode}
    (h : outboundTagForNodeId node.id = .ok tag) : tag ≠ directTag := by
  intro hdirect
  obtain ⟨rest, hrest⟩ := node.stable
  simp only [outboundTagForNodeId] at h
  split at h
  · cases h
  · injection h with h
    have hsuffix : (node.id.filter isTagCharacter).drop
        ((node.id.filter isTagCharacter).length - 32) = js "direct" := by
      refine List.append_cancel_left (h.trans (hdirect.trans ?_))
      decide
    have hkept : node.id.filter isTagCharacter = js "node-" ++ rest.filter isTagCharacter := by
      rw [← hrest, List.filter_append]
      rfl
    have hlength := congrArg List.length hsuffix
    have hsix : (js "direct").length = 6 := rfl
    rw [List.length_drop, hsix] at hlength
    have hzero : (node.id.filter isTagCharacter).length - 32 = 0 := by omega
    rw [hzero, List.drop_zero, hkept] at hsuffix
    simp [js] at hsuffix

theorem lookup_outboundTags {nodes : List InternalProxyNode} {tags : List (JsString × JsString)}
    (h : nodes.mapM (fun node => do return (node.id, ← outboundTagForNodeId node.id)) = .ok tags) :
    ∀ node ∈ nodes, ∃ tag, outboundTagForNodeId node.id = .ok tag ∧
      tags.lookup node.id = some tag ∧ tag ∈ tags.map Prod.snd := by
  induction nodes generalizing tags with
  | nil => simp
  | cons first nodes ih =>
      rw [List.mapM_cons] at h
      obtain ⟨entry, hentry, h⟩ := Lib.bind_eq_ok.mp h
      obtain ⟨tag, htag, hreturn⟩ := Lib.bind_eq_ok.mp hentry
      obtain ⟨others, hothers, h⟩ := Lib.bind_eq_ok.mp h
      injection hreturn with hreturn
      injection h with h
      subst hreturn h
      intro node hnode
      by_cases hid : node.id = first.id
      · exact ⟨tag, by rw [hid, htag], by simp [hid], by simp⟩
      · have hmem : node ∈ nodes := by
          rcases List.mem_cons.mp hnode with rfl | hmem
          · exact absurd rfl hid
          · exact hmem
        obtain ⟨tag', htag', hlookup, hin⟩ := ih hothers node hmem
        refine ⟨tag', htag', ?_, List.mem_cons_of_mem _ hin⟩
        rw [List.lookup_cons, beq_false_of_ne hid]
        exact hlookup

variable {input : BuildSingBoxConfigInput}

theorem mem_nodes_of_activeNode {node : InternalProxyNode} (h : activeNode input = some node) :
    node ∈ input.profile.nodes := by
  unfold activeNode at h
  split at h
  · rcases Option.or_eq_some_iff.mp h with hfind | ⟨-, hhead⟩
    · exact List.mem_of_find?_eq_some hfind
    · exact List.mem_of_head? hhead
  · exact List.mem_of_head? h

/-- What a configuration that is built is made of, outside the direct mode. -/
theorem buildSingBoxConfig_eq_ok (h : buildSingBoxConfig isIP input = .ok result)
    (hmode : input.mode ≠ .direct) :
    ∃ node tag, activeNode input = some node ∧ outboundTagForNodeId node.id = .ok tag ∧
      result.activeNodeId = some node.id ∧ tag ∈ result.outbounds ∧
      buildRoute (importedRules input.profile) (selectedPolicy input) (some tag)
        (requiredDomains isIP input) (resolveCustomOverlay input.customRules) = .ok result.route := by
  have hproxy : needsProxy input = true := by simp [needsProxy, hmode]
  obtain ⟨-, -, h⟩ := Lib.bind_eq_ok.mp h
  cases hactive : activeNode input with
  | none =>
      simp only [hactive, hproxy] at h
      cases h
  | some node =>
      simp only [hactive, hproxy, Option.isNone_some, Bool.and_false, Bool.false_eq_true,
        if_false] at h
      obtain ⟨tags, htags, h⟩ := Lib.bind_eq_ok.mp h
      obtain ⟨route, hroute, h⟩ := Lib.bind_eq_ok.mp h
      injection h with h
      obtain ⟨tag, htag, hlookup, hmem⟩ :=
        lookup_outboundTags htags node (mem_nodes_of_activeNode hactive)
      subst h
      refine ⟨node, tag, rfl, htag, rfl, List.mem_append_left _ hmem, ?_⟩
      rw [Option.bind_some, hlookup] at hroute
      exact hroute

/-! ## Connections to required domains -/

/-- The connection goes to the outbound of the active node, which is not the direct
one. -/
def GoesToActiveNode (box : SingBox) (connection : Connection) (input : BuildSingBoxConfigInput)
    (result : BuildSingBoxConfigResult) : Prop :=
  ∃ node ∈ input.profile.nodes, ∃ tag, result.activeNodeId = some node.id ∧
    outboundTagForNodeId node.id = .ok tag ∧ tag ∈ result.outbounds ∧ tag ≠ directTag ∧
    box.evaluate connection result.route = .outbound tag

theorem outcomeOf_eq_outbound_iff {action : InternalProxyRuleAction} (h : tag ≠ directTag) :
    outcomeOf tag action = .outbound tag ↔ action = .proxy := by
  cases action <;> simp [outcomeOf, Ne.symm h]

theorem matches_loopbackMatch : box.matches connection true loopbackMatch = false := by
  rw [loopbackMatch, matches_single]
  rfl

/-- The mandatory rule takes what is pinned. -/
theorem firstAction_pinnedRules (hmode : input.mode ≠ .direct) :
    box.firstAction connection (pinnedRules (selectedPolicy input)
      (missingDomains (importedRules input.profile) (selectedPolicy input)
        (requiredDomains isIP input) (resolveCustomOverlay input.customRules))) =
      if IsPinned connection isIP input then some .proxy else none := by
  have hpolicy : selectedPolicy input ≠ .direct := by
    unfold selectedPolicy
    cases hm : input.mode with
    | direct => exact absurd hm hmode
    | global => simp
    | rule => by_cases himported : importedRules input.profile = [] <;> simp [himported]
  have hpinned : IsPinned connection isIP input ↔
      (missingDomains (importedRules input.profile) (selectedPolicy input)
        (requiredDomains isIP input) (resolveCustomOverlay input.customRules)).any
        (hostHasSuffix connection.host) = true := by
    simp only [IsPinned, missingDomains, List.any_eq_true, List.mem_filter]
    constructor
    · rintro ⟨domain, hdomain, hbelow, hnot⟩
      exact ⟨domain, ⟨hdomain, by simp [hnot]⟩,
        (hostHasSuffix_iff (head?_ne_dot_of_required hdomain)).mpr hbelow⟩
    · rintro ⟨domain, ⟨hdomain, hnot⟩, hsuffix⟩
      exact ⟨domain, hdomain, (hostHasSuffix_iff (head?_ne_dot_of_required hdomain)).mp hsuffix,
        by simpa using hnot⟩
  generalize missingDomains _ _ _ _ = missing at hpinned ⊢
  by_cases hmissing : missing = []
  · have hnot : ¬ IsPinned connection isIP input := by simp [hpinned, hmissing]
    simp [pinnedRules, hmissing, hnot, SingBox.firstAction]
  · rw [pinnedRules, if_pos ⟨hpolicy, hmissing⟩, firstAction_single, matches_single]
    exact if_congr hpinned.symm rfl rfl

/-- A connection goes to the active node exactly when its host is no name of this
machine, and a required domain at or above it has been pinned or the first rule
that matches it says so. -/
theorem goesToActiveNode_iff_staysProxied (box : SingBox) (connection : Connection)
    (isIP : JsString → Nat) (input : BuildSingBoxConfigInput) (result : BuildSingBoxConfigResult)
    (hbuilt : buildSingBoxConfig isIP input = .ok result) (hmode : input.mode ≠ .direct) :
    GoesToActiveNode box connection input result ↔ StaysProxied box connection isIP input := by
  obtain ⟨node, tag, hactive, htag, hid, houtbound, hroute⟩ := buildSingBoxConfig_eq_ok hbuilt hmode
  have hne := ne_directTag_of_stable htag
  have hgoes : GoesToActiveNode box connection input result ↔
      box.evaluate connection result.route = .outbound tag := by
    constructor
    · rintro ⟨node', -, tag', hid', htag', -, -, heval⟩
      have hsame : node.id = node'.id := Option.some.inj (hid.symm.trans hid')
      rw [← hsame, htag] at htag'
      injection htag' with htag'
      rw [htag', heval]
    · exact fun heval =>
        ⟨node, mem_nodes_of_activeNode hactive, tag, hid, htag, houtbound, hne, heval⟩
  rw [hgoes, evaluate_buildRoute hroute, outcomeOf_eq_outbound_iff hne, List.append_assoc,
    ← laterRules, firstAction_append, firstAction_append, firstAction_pinnedRules hmode]
  have hloopback : box.firstAction connection
      [(localhostMatch, .direct), (loopbackMatch, .direct)] =
        if box.matches connection true localhostMatch then some .direct else none := by
    rw [show [(localhostMatch, InternalProxyRuleAction.direct), (loopbackMatch, .direct)] =
      [(localhostMatch, .direct)] ++ [(loopbackMatch, .direct)] from rfl, firstAction_append,
      firstAction_single, firstAction_single, matches_loopbackMatch]
    simp
  rw [hloopback, StaysProxied]
  by_cases hpinned : IsPinned connection isIP input <;>
    cases box.matches connection true localhostMatch <;> simp [hpinned]

/-- A subscription of one node without rules. -/
def oneNode : ParsedBuiltInProxyProfile :=
  ⟨[⟨js "node-0123456789abcdef01234567", by decide, 443⟩], []⟩

/-- The user sends what goes to port 443 directly. -/
def directPort : BuildSingBoxConfigInput :=
  ⟨oneNode, none, .rule, some ⟨[⟨.port, [js "443"], .direct⟩]⟩, none⟩

/-- The user sends a name below a required domain directly. -/
def directName : BuildSingBoxConfigInput :=
  ⟨oneNode, none, .rule, some ⟨[⟨.domain, [js "api.openai.com"], .direct⟩]⟩, none⟩

def https (host : String) : Connection := ⟨js host, 443, .tcp, some (js "tls")⟩

/-- No text is an IP address. -/
def noIP (_ : JsString) : Nat := 0

theorem required_domain_goes_direct :
    (∃ domain ∈ requiredDomains noIP directPort, AtOrBelow (https "openai.com").host domain) ∧
      (buildSingBoxConfig noIP directPort).toOption.map
          (fun result => conjunctive.evaluate (https "openai.com") result.route) =
        some (.outbound directTag) ∧
    (∃ domain ∈ requiredDomains noIP directName, AtOrBelow (https "api.openai.com").host domain) ∧
      (buildSingBoxConfig noIP directName).toOption.map
          (fun result => conjunctive.evaluate (https "api.openai.com") result.route) =
        some (.outbound directTag) := by
  decide +kernel

/-- The name of the domain itself is not the user's rule, and another name below it
is not either. -/
theorem other_names_go_to_active_node :
    ∃ result, buildSingBoxConfig noIP directName = .ok result ∧
      GoesToActiveNode conjunctive (https "chat.openai.com") directName result ∧
      ¬ GoesToActiveNode conjunctive (https "api.openai.com") directName result := by
  have hok : (buildSingBoxConfig noIP directName).toOption.isSome = true := by decide +kernel
  cases hbuilt : buildSingBoxConfig noIP directName with
  | error error =>
      rw [hbuilt] at hok
      cases hok
  | ok result =>
      have hmode : directName.mode ≠ .direct := by decide
      refine ⟨result, rfl, ?_, ?_⟩
      · rw [goesToActiveNode_iff_staysProxied conjunctive _ noIP directName result hbuilt hmode]
        exact ⟨by decide, .inr (by decide)⟩
      · rw [goesToActiveNode_iff_staysProxied conjunctive _ noIP directName result hbuilt hmode]
        rintro ⟨-, hpinned | haction⟩
        · revert hpinned
          decide +kernel
        · revert haction
          decide

end StonePlus.Proxy.ConfigBuilder
