import StonePlus.Js.Map
import StonePlus.Js.Str

/-!
# StonePlus.Proxy.ProfileGroups

The groups of an imported proxy profile (`proxy/built-in/profile-parser.ts`): the nodes and groups
of a sing-box or a Clash profile, the nodes that are kept, and the nodes of each group.

What a node is but for its name (`ι`), and whether an entry is a node that is supported, is an
input.  So are the hash a node id is made of, that of a group id, and `toLowerCase`.
-/

namespace StonePlus.Proxy.ProfileParser

open JsString

variable {ι : Type}

def maxNodes : Nat := 2048

/-! ## Strings -/

/-- `optionalString`, of a value that may be a string. -/
def optionalString (value : Option JsString) : Option JsString :=
  value.bind fun value => if value.trim = [] then none else some value.trim

def isAsciiControl (c : UInt16) : Bool := c < 32 || c == 127

def isDisallowedAsciiControl (c : UInt16) : Bool :=
  c ≤ 8 || c == 11 || c == 12 || (14 ≤ c && c ≤ 31) || c == 127

def requiredString (value : Option JsString) (max : Nat) : Option JsString :=
  value.bind fun value =>
    let result := value.trim
    if result = [] ∨ max < result.length ∨ result.any isDisallowedAsciiControl then none
    else some result

/-- `stringArray`: of an array its strings, unless one of them is not allowed. -/
def stringArray (value : Option (List (Option JsString))) : List JsString :=
  match value with
  | some items =>
    if maxNodes * 2 < items.length then []
    else (items.mapM (requiredString · 256)).getD []
  | none => []

/-- `replace(/\s+/g, ' ')`. -/
def collapse (inRun : Bool) : JsString → JsString
  | [] => []
  | c :: rest =>
    if isWhitespace c then if inRun then collapse true rest else 0x20 :: collapse true rest
    else c :: collapse false rest

def safeName (value fallback : JsString) : JsString :=
  let spaced : JsString := value.map fun c => if isAsciiControl c then 0x20 else c
  let result := (collapse false spaced.trim).take 128
  if result = [] then fallback else result

/-! ## Profiles -/

/-- A node of a profile. -/
structure ProfileNode (ι : Type) where
  name : JsString
  /-- The name it gets if nothing is left of its own. -/
  fallback : JsString
  identity : ι

inductive GroupType
  | selector | urltest | fallback | loadBalance
  deriving DecidableEq, Repr

structure ProfileGroup where
  name : JsString
  fallback : JsString
  type : GroupType
  /-- The members, `none` for one that is not a string, if they are an array. -/
  members : Option (List (Option JsString))

structure Profile (ι : Type) where
  nodes : List (ProfileNode ι)
  groups : List ProfileGroup

/-- An entry of `outbounds`. -/
structure SingBoxOutbound (ι : Type) where
  type : Option JsString
  tag : Option JsString
  outbounds : Option (List (Option JsString))
  /-- What `parseSingBoxNode` makes of it. -/
  node : Option ι

/-- What `parseSingBoxJson` does with one entry; one that is not an object is `none`. -/
def singBoxEntry (lower : JsString → JsString) (index : Nat)
    (entry : Option (SingBoxOutbound ι)) : Option (ProfileGroup ⊕ ProfileNode ι) :=
  entry.bind fun entry =>
    let fallback := js "outbound-" ++ natToString (index + 1)
    let name := (optionalString entry.tag).getD fallback
    (optionalString entry.type).bind fun type =>
      let type := lower type
      if type = js "direct" ∨ type = js "block" then none
      else if type = js "selector" then
        some (.inl { name, fallback, type := .selector, members := entry.outbounds })
      else if type = js "urltest" then
        some (.inl { name, fallback, type := .urltest, members := entry.outbounds })
      else entry.node.map fun identity => .inr { name, fallback, identity }

/-- `parseSingBoxJson`, as far as the nodes and the groups. -/
def parseSingBoxJson (lower : JsString → JsString)
    (outbounds : List (Option (SingBoxOutbound ι))) : Option (Profile ι) :=
  if maxNodes * 2 < outbounds.length then none
  else
    let entries := (outbounds.mapIdx (singBoxEntry lower)).reduceOption
    some { nodes := entries.filterMap Sum.getRight?, groups := entries.filterMap Sum.getLeft? }

/-- An entry of `proxies`. -/
structure ClashProxy (ι : Type) where
  name : Option JsString
  /-- What `parseClashNode` makes of it. -/
  node : Option ι

/-- An entry of `proxy-groups`. -/
structure ClashGroup where
  name : Option JsString
  type : Option JsString
  proxies : Option (List (Option JsString))

def clashNode (index : Nat) (entry : Option (ClashProxy ι)) : Option (ProfileNode ι) :=
  entry.bind fun entry =>
    let fallback := js "proxy-" ++ natToString (index + 1)
    entry.node.map fun identity =>
      { name := (optionalString entry.name).getD fallback, fallback, identity }

def clashGroupType (type : JsString) : Option GroupType :=
  if type = js "select" then some .selector
  else if type = js "url-test" then some .urltest
  else if type = js "fallback" then some .fallback
  else if type = js "load-balance" then some .loadBalance
  else none

def clashGroup (lower : JsString → JsString) (entry : Option ClashGroup) : Option ProfileGroup := do
  let entry ← entry
  let name ← optionalString entry.name
  let type ← clashGroupType (lower (← optionalString entry.type))
  return { name, fallback := js "Proxy group", type, members := entry.proxies }

/-- `parseClashYaml`, as far as the nodes and the groups. -/
def parseClashYaml (lower : JsString → JsString) (proxies : List (Option (ClashProxy ι)))
    (groups : List (Option ClashGroup)) : Option (Profile ι) :=
  if maxNodes < proxies.length then none
  else
    some
      { nodes := (proxies.mapIdx clashNode).reduceOption
        groups := groups.filterMap (clashGroup lower) }

/-- Where a profile comes from. -/
inductive ProfileSource (ι : Type)
  | singBox (outbounds : List (Option (SingBoxOutbound ι)))
  | clash (proxies : List (Option (ClashProxy ι))) (groups : List (Option ClashGroup))

def ProfileSource.parse (lower : JsString → JsString) : ProfileSource ι → Option (Profile ι)
  | .singBox outbounds => parseSingBoxJson lower outbounds
  | .clash proxies groups => parseClashYaml lower proxies groups

/-! ## Nodes -/

structure NodeDraft (ι : Type) where
  name : JsString
  identity : ι

structure InternalProxyNode (ι : Type) where
  id : JsString
  draft : NodeDraft ι

def ProfileNode.draft (node : ProfileNode ι) : NodeDraft ι where
  name := safeName node.name node.fallback
  identity := node.identity

/-- `stableNodeId`: the name of a node is no part of it. -/
def stableNodeId (hash : ι → JsString) (node : NodeDraft ι) : JsString :=
  js "node-" ++ hash node.identity

/-- `deduplicateNodes`. -/
def deduplicateNodes (hash : ι → JsString) (drafts : List (NodeDraft ι)) :
    List (InternalProxyNode ι) :=
  drafts.foldl (fun nodes draft =>
    let id := stableNodeId hash draft
    if id ∈ nodes.map (·.id) then nodes else nodes ++ [⟨id, draft⟩]) []

/-- `tagToDraft` and `nameToDraft`. -/
def draftsByName (nodes : List (ProfileNode ι)) : JsMap JsString (NodeDraft ι) :=
  nodes.foldl (fun names node => names.set (safeName node.name node.fallback) node.draft) ∅

/-! ## Groups -/

structure GroupRecord where
  tag : JsString
  type : GroupType
  members : List JsString

def ProfileGroup.record (group : ProfileGroup) : GroupRecord where
  tag := safeName group.name group.fallback
  type := group.type
  members := stringArray group.members

structure InternalProxyGroup where
  id : JsString
  name : JsString
  type : GroupType
  nodeIds : List JsString
  deriving DecidableEq

variable (lower : JsString → JsString)

/-- The id of each draft that has been kept, by the name the draft has in `names`. -/
def draftToId (hash : ι → JsString) (names : JsMap JsString (NodeDraft ι))
    (nodes : List (InternalProxyNode ι)) : JsMap JsString JsString :=
  nodes.foldl (fun ids node =>
    match names.entries.find? fun (_, candidate) => stableNodeId hash candidate = node.id with
    | some (key, _) => ids.set key node.id
    | none => ids) ∅

/-- `recordMap.get(key)`: the last record of this name. -/
def recordOf (records : List GroupRecord) (key : JsString) : Option GroupRecord :=
  records.reverse.find? fun record => lower record.tag = key

theorem recordOf_eq_some (h : recordOf lower records key = some record) :
    record ∈ records ∧ lower record.tag = key :=
  ⟨List.mem_reverse.mp (List.mem_of_find?_eq_some h), by simpa using List.find?_some h⟩

/-- Of the elements whose key has not been seen there are fewer once one of them has. -/
theorem length_filter_seen_lt {α : Type} (key : α → JsString) {l : List α} {a : α} (ha : a ∈ l)
    {seen : List JsString} (hseen : key a ∉ seen) :
    (l.filter (key · ∉ key a :: seen)).length < (l.filter (key · ∉ seen)).length := by
  have hsub : l.filter (key · ∉ key a :: seen) =
      (l.filter (key · ∉ seen)).filter (key · ≠ key a) := by
    rw [List.filter_filter]
    exact List.filter_congr fun b _ => by simp [not_or]
  rw [hsub]
  refine List.length_filter_lt_length_iff_exists.mpr ⟨a, List.mem_filter.mpr ⟨ha, ?_⟩, ?_⟩
  · exact decide_eq_true hseen
  · simp

/-- The ids of the nodes a name stands for, without the groups that have been `seen`. -/
def resolve (records : List GroupRecord) (names : JsMap JsString (NodeDraft ι))
    (ids : JsMap JsString JsString) (name : JsString) (seen : List JsString) : List JsString :=
  match names.entries.find? fun (key, _) => lower key = lower name with
  | some (key, _) => (ids.get? key).toList
  | none =>
    if _hseen : lower name ∈ seen then []
    else
      match _hrecord : recordOf lower records (lower name) with
      | none => []
      | some group =>
        group.members.flatMap fun member =>
          resolve records names ids member (lower name :: seen)
termination_by (records.filter (lower ·.tag ∉ seen)).length
decreasing_by
  obtain ⟨hmem, hkey⟩ := recordOf_eq_some lower _hrecord
  rw [← hkey] at _hseen ⊢
  exact length_filter_seen_lt (lower ·.tag) hmem _hseen

/-- `[...new Set(values)]`. -/
def uniqueIds (values : List JsString) : List JsString :=
  values.foldl (fun seen value => if value ∈ seen then seen else seen ++ [value]) []

def buildGroups (groupId : JsString → JsString) (hash : ι → JsString)
    (records : List GroupRecord) (names : JsMap JsString (NodeDraft ι))
    (nodes : List (InternalProxyNode ι)) : List InternalProxyGroup :=
  (records.map fun record =>
    { id := groupId record.tag
      name := record.tag
      type := record.type
      nodeIds := uniqueIds (record.members.flatMap fun member =>
        resolve lower records names (draftToId hash names nodes) member
          [lower record.tag]) }).filter (0 < ·.nodeIds.length)

/-- The nodes of an imported profile. -/
def importedNodes (hash : ι → JsString) (profile : Profile ι) : List (InternalProxyNode ι) :=
  deduplicateNodes hash (profile.nodes.map ProfileNode.draft)

/-- The groups of an imported profile. -/
def importedGroups (groupId : JsString → JsString) (hash : ι → JsString) (profile : Profile ι) :
    List InternalProxyGroup :=
  buildGroups lower groupId hash (profile.groups.map ProfileGroup.record)
    (draftsByName profile.nodes) (importedNodes hash profile)

end StonePlus.Proxy.ProfileParser
