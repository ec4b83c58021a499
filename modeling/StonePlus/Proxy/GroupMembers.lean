import StonePlus.Proxy.ProfileGroups
import Mathlib.Data.List.ReduceOption
import Mathlib.Data.List.Find
import Mathlib.Data.List.Induction
import Mathlib.Tactic.Common

/-!
# StonePlus.Proxy.GroupMembers

Which nodes an imported group has.

A group of the profile reaches a node through the names of its members, and an imported group
holds the ids of the nodes it reaches, or not: of nodes with one identity only the first is
found again, so a group keeps a node only if it reaches the first one as well.
-/

namespace StonePlus.Proxy.ProfileParser

open JsString

variable {ι : Type} {lower : JsString → JsString} {hash : ι → JsString} {profile : Profile ι}

/-! ## Reaching nodes -/

/-- The names a group lists. -/
def ProfileGroup.memberNames (group : ProfileGroup) : List JsString :=
  (group.members.getD []).reduceOption.map trim

/-- A name stands for a node, directly or through groups. -/
inductive Reaches (profile : Profile ι) : JsString → ProfileNode ι → Prop
  | node {node : ProfileNode ι} (hnode : node ∈ profile.nodes) : Reaches profile node.name node
  | group {group : ProfileGroup} {member : JsString} {node : ProfileNode ι}
      (hgroup : group ∈ profile.groups) (hmember : member ∈ group.memberNames)
      (hreaches : Reaches profile member node) : Reaches profile group.name node

def GroupReaches (profile : Profile ι) (group : ProfileGroup) (node : ProfileNode ι) : Prop :=
  ∃ member ∈ group.memberNames, Reaches profile member node

/-- The id of a node of the profile. -/
def nodeId (hash : ι → JsString) (node : ProfileNode ι) : JsString := stableNodeId hash node.draft

open Classical in
/-- The imported groups are the groups that reach a node, with the ids of the final nodes whose
identity is that of a node they reach. -/
def KeepsNodes (lower groupId : JsString → JsString) (hash : ι → JsString)
    (profile : Profile ι) : Prop :=
  List.Forall₂ (fun group imported =>
      imported.name = safeName group.name group.fallback ∧ imported.nodeIds.Nodup ∧
        ∀ id, id ∈ imported.nodeIds ↔ ∃ final ∈ importedNodes hash profile, final.id = id ∧
          ∃ node, GroupReaches profile group node ∧ nodeId hash node = final.id)
    (profile.groups.filter fun group => decide (∃ node, GroupReaches profile group node))
    (importedGroups lower groupId hash profile)

/-! ## Names and members that are taken as they are -/

/-- A member that is taken: a string of at most 256 code units without control characters. -/
def PlainMember (item : Option JsString) : Prop :=
  ∃ member, item = some member ∧ member.trim ≠ [] ∧ member.trim.length ≤ 256 ∧
    member.trim.any isDisallowedAsciiControl = false

/-- The names of a profile's nodes and groups. -/
def Profile.names (profile : Profile ι) : List JsString :=
  profile.nodes.map (·.name) ++ profile.groups.map (·.name)

/-- Names that `safeName` leaves as they are and that differ in more than case, and members that
are spelled as the name they stand for. -/
structure Plain (lower : JsString → JsString) (profile : Profile ι) : Prop where
  nodes : ∀ node ∈ profile.nodes, safeName node.name node.fallback = node.name
  groups : ∀ group ∈ profile.groups, safeName group.name group.fallback = group.name
  distinct : (profile.names.map lower).Nodup
  lists : ∀ group ∈ profile.groups, (group.members.getD []).length ≤ maxNodes * 2 ∧
    ∀ item ∈ group.members.getD [], PlainMember item
  spelled : ∀ group ∈ profile.groups, ∀ member ∈ group.memberNames, ∀ name ∈ profile.names,
    lower name = lower member → name = member

/-- The node is the first one of its identity. -/
def IsFirst (hash : ι → JsString) (profile : Profile ι) (node : ProfileNode ι) : Prop :=
  profile.nodes.find? (fun other => nodeId hash other = nodeId hash node) = some node

/-- Each group that reaches a node reaches the first one of its identity. -/
def ReachesFirst (hash : ι → JsString) (profile : Profile ι) : Prop :=
  ∀ group ∈ profile.groups, ∀ node, GroupReaches profile group node →
    ∃ first, GroupReaches profile group first ∧ IsFirst hash profile first ∧
      nodeId hash first = nodeId hash node

theorem mapM_requiredString {items : List (Option JsString)} (h : ∀ item ∈ items, PlainMember item) :
    items.mapM (requiredString · 256) = some (items.reduceOption.map trim) := by
  induction items with
  | nil => rfl
  | cons item items ih =>
    obtain ⟨hitem, hitems⟩ := List.forall_mem_cons.mp h
    obtain ⟨member, rfl, hne, hlength, hcontrol⟩ := hitem
    have hallowed : ¬(member.trim = [] ∨ 256 < member.trim.length ∨
        member.trim.any isDisallowedAsciiControl) :=
      not_or.mpr ⟨hne, not_or.mpr ⟨Nat.not_lt.mpr hlength, Bool.eq_false_iff.mp hcontrol⟩⟩
    have hrequired : requiredString (some member) 256 = some member.trim := if_neg hallowed
    rw [List.mapM_cons, hrequired, ih hitems]
    rfl

theorem stringArray_members (h : Plain lower profile) {group : ProfileGroup}
    (hgroup : group ∈ profile.groups) : stringArray group.members = group.memberNames := by
  obtain ⟨hlength, hitems⟩ := h.lists group hgroup
  unfold stringArray ProfileGroup.memberNames
  cases hmembers : group.members with
  | none => rfl
  | some items =>
    rw [hmembers] at hlength hitems
    simp only [Option.getD_some] at hlength hitems ⊢
    rw [if_neg (Nat.not_lt.mpr hlength), mapM_requiredString hitems]
    rfl

theorem node_mem_names (hnode : node ∈ profile.nodes) : node.name ∈ profile.names :=
  List.mem_append_left _ (List.mem_map.mpr ⟨node, hnode, rfl⟩)

theorem group_mem_names (hgroup : group ∈ profile.groups) : group.name ∈ profile.names :=
  List.mem_append_right _ (List.mem_map.mpr ⟨group, hgroup, rfl⟩)

theorem Plain.node_ext (h : Plain lower profile) (ha : a ∈ profile.nodes) (hb : b ∈ profile.nodes)
    (heq : lower a.name = lower b.name) : a = b := by
  have hnodup : (profile.nodes.map fun node => lower node.name).Nodup := by
    have hall := h.distinct
    rw [Profile.names, List.map_append, List.map_map] at hall
    exact (List.nodup_append.mp hall).1
  exact List.inj_on_of_nodup_map hnodup ha hb heq

theorem Plain.group_ext (h : Plain lower profile) (ha : a ∈ profile.groups)
    (hb : b ∈ profile.groups) (heq : lower a.name = lower b.name) : a = b := by
  have hnodup : (profile.groups.map fun group => lower group.name).Nodup := by
    have hall := h.distinct
    rw [Profile.names, List.map_append, List.map_map, List.map_map] at hall
    exact (List.nodup_append.mp hall).2.1
  exact List.inj_on_of_nodup_map hnodup ha hb heq

theorem Plain.node_ne_group (h : Plain lower profile) (hnode : node ∈ profile.nodes)
    (hgroup : group ∈ profile.groups) : lower node.name ≠ lower group.name := by
  have hall := h.distinct
  rw [Profile.names, List.map_append, List.map_map, List.map_map] at hall
  exact (List.nodup_append.mp hall).2.2 _ (List.mem_map.mpr ⟨node, hnode, rfl⟩) _
    (List.mem_map.mpr ⟨group, hgroup, rfl⟩)

/-! ## The nodes by name -/

theorem entries_draftsByName (h : Plain lower profile) :
    (draftsByName profile.nodes).entries = profile.nodes.map fun node => (node.name, node.draft) := by
  have hnodup : (profile.nodes.map (·.name)).Nodup := by
    have hall := (List.Nodup.of_map lower h.distinct)
    exact (List.nodup_append.mp hall).1
  have hsafe := h.nodes
  generalize profile.nodes = nodes at hnodup hsafe
  induction nodes using List.reverseRec with
  | nil => rfl
  | append_singleton nodes node ih =>
    rw [List.map_append] at hnodup
    obtain ⟨hnodes, -, hdisjoint⟩ := List.nodup_append.mp hnodup
    have hentries := ih hnodes fun other hother => hsafe other (List.mem_append_left _ hother)
    have hname := hsafe node (List.mem_append_right _ (List.mem_singleton_self node))
    have hnew : node.name ∉ (draftsByName nodes).entries.map Prod.fst := by
      rw [hentries, List.map_map]
      intro hmem
      exact hdisjoint _ hmem _ (List.mem_singleton_self _) rfl
    have hstep : (draftsByName (nodes ++ [node])).entries =
        JsMap.setEntries node.name node.draft (draftsByName nodes).entries := by
      rw [draftsByName, List.foldl_append, List.foldl_cons, List.foldl_nil, hname]
      rfl
    rw [hstep, JsMap.setEntries_of_not_mem hnew, hentries, List.map_append]
    rfl

variable {id : JsString}

/-- The ids of the final nodes are those of the nodes of the profile. -/
theorem mem_importedNodes_id : (∃ final ∈ importedNodes hash profile, final.id = id) ↔
      ∃ node ∈ profile.nodes, nodeId hash node = id := by
  unfold importedNodes nodeId
  generalize profile.nodes = nodes
  induction nodes using List.reverseRec with
  | nil => simp [deduplicateNodes]
  | append_singleton nodes node ih =>
    rw [List.map_append, deduplicateNodes, List.foldl_append]
    rw [deduplicateNodes] at ih
    simp only [List.map_cons, List.map_nil, List.foldl_cons, List.foldl_nil, List.mem_append,
      List.mem_singleton, or_and_right, exists_or, exists_eq_left]
    rw [← ih]
    split
    · rename_i hmem
      obtain ⟨final, hfinal, hid⟩ := List.mem_map.mp hmem
      exact ⟨.inl, fun h => h.elim (fun h => h) fun heq => ⟨final, hfinal, hid.trans heq⟩⟩
    · simp only [List.mem_append, List.mem_singleton, or_and_right, exists_or, exists_eq_left]

/-- The first node of an id, found by the ids of the drafts. -/
theorem find?_draft (h : Plain lower profile) (id : JsString) :
    ((draftsByName profile.nodes).entries.find? fun (_, candidate) =>
      stableNodeId hash candidate = id) =
        (profile.nodes.find? fun node => nodeId hash node = id).map fun node =>
          (node.name, node.draft) := by
  rw [entries_draftsByName h, List.find?_map]
  rfl

/-- A name has an id if it is that of the first node of this id. -/
theorem get?_draftToId (h : Plain lower profile) :
    (draftToId hash (draftsByName profile.nodes) (importedNodes hash profile)).get? name =
        some id ↔
      ∃ node, profile.nodes.find? (fun other => nodeId hash other = id) = some node ∧
        node.name = name := by
  have hname : ∀ {id id' : JsString} {node node' : ProfileNode ι},
      profile.nodes.find? (fun other => nodeId hash other = id) = some node →
      profile.nodes.find? (fun other => nodeId hash other = id') = some node' →
      node.name = node'.name → id = id' := by
    intro id id' node node' hnode hnode' heq
    have hsame := h.node_ext (List.mem_of_find?_eq_some hnode) (List.mem_of_find?_eq_some hnode')
      (congrArg lower heq)
    have hid : nodeId hash node = id := by simpa using List.find?_some hnode
    have hid' : nodeId hash node' = id' := by simpa using List.find?_some hnode'
    rw [← hid, ← hid', hsame]
  -- a name is only ever set to the id of its node
  suffices hall : ∀ finals : List (InternalProxyNode ι),
      (draftToId hash (draftsByName profile.nodes) finals).get? name = some id ↔
        (∃ final ∈ finals, final.id = id) ∧
          ∃ node, profile.nodes.find? (fun other => nodeId hash other = id) = some node ∧
            node.name = name by
    rw [hall, mem_importedNodes_id, and_iff_right_iff_imp]
    rintro ⟨node, hfind, -⟩
    exact ⟨node, List.mem_of_find?_eq_some hfind, by simpa using List.find?_some hfind⟩
  intro finals
  induction finals using List.reverseRec with
  | nil => simp [draftToId]
  | append_singleton finals final ih =>
    have hmem : (∃ other ∈ finals ++ [final], other.id = id) ↔
        (∃ other ∈ finals, other.id = id) ∨ final.id = id := by
      simp [or_and_right, exists_or]
    rw [draftToId, List.foldl_append, ← draftToId, hmem]
    simp only [List.foldl_cons, List.foldl_nil, find?_draft h]
    cases hfind : profile.nodes.find? fun node => nodeId hash node = final.id with
    | none =>
      rw [Option.map_none, ih]
      refine and_congr_left ?_
      rintro ⟨node, hnode, -⟩
      refine (or_iff_left fun heq => ?_).symm
      rw [← heq, hfind] at hnode
      exact Option.some_ne_none _ hnode.symm
    | some first =>
      rw [Option.map_some]
      simp only [JsMap.get?_set]
      split
      · rename_i hset
        rw [Option.some.injEq]
        constructor
        · rintro rfl
          exact ⟨.inr rfl, first, hfind, hset.symm⟩
        · rintro ⟨-, node, hnode, hnodeName⟩
          exact hname hfind hnode (hset.symm.trans hnodeName.symm)
      · rename_i hset
        rw [ih]
        refine and_congr_left ?_
        rintro ⟨node, hnode, hnodeName⟩
        refine (or_iff_left fun heq => ?_).symm
        rw [← heq, hfind] at hnode
        exact hset (hnodeName.symm.trans (congrArg ProfileNode.name (Option.some.inj hnode).symm))

/-! ## The search -/

/-- The records of a profile. -/
def recordsOf (profile : Profile ι) : List GroupRecord := profile.groups.map ProfileGroup.record

/-- `resolve` over what was imported. -/
def resolved (lower : JsString → JsString) (hash : ι → JsString) (profile : Profile ι)
    (name : JsString) (seen : List JsString) : List JsString :=
  resolve lower (recordsOf profile) (draftsByName profile.nodes)
    (draftToId hash (draftsByName profile.nodes) (importedNodes hash profile)) name seen

/-- A name that is spelled as the name it stands for. -/
def Spelled (lower : JsString → JsString) (profile : Profile ι) (member : JsString) : Prop :=
  ∀ name ∈ profile.names, lower name = lower member → name = member

theorem find?_name (h : Plain lower profile) {name : JsString} (hspelled : Spelled lower profile name) :
    ((draftsByName profile.nodes).entries.find? fun (key, _) => lower key = lower name) =
      (profile.nodes.find? fun node => node.name = name).map fun node =>
        (node.name, node.draft) := by
  rw [entries_draftsByName h, List.find?_map]
  congr 1
  refine List.find?_congr fun node hnode => ?_
  have hiff : lower node.name = lower name ↔ node.name = name :=
    ⟨hspelled _ (node_mem_names hnode), fun heq => heq ▸ rfl⟩
  simp [hiff]

theorem recordOf_name (h : Plain lower profile) (hspelled : Spelled lower profile name) :
    recordOf lower (recordsOf profile) (lower name) = some record ↔
      ∃ group ∈ profile.groups, group.name = name ∧ group.record = record := by
  have htag : ∀ group ∈ profile.groups, group.record.tag = group.name := h.groups
  constructor
  · intro hrecord
    obtain ⟨hmem, hkey⟩ := recordOf_eq_some lower hrecord
    obtain ⟨group, hgroup, rfl⟩ := List.mem_map.mp hmem
    rw [htag group hgroup] at hkey
    exact ⟨group, hgroup, hspelled _ (group_mem_names hgroup) hkey, rfl⟩
  · rintro ⟨group, hgroup, rfl, rfl⟩
    cases hrecord : recordOf lower (recordsOf profile) (lower group.name) with
    | none =>
      have hnone := List.find?_eq_none.mp hrecord group.record
        (List.mem_reverse.mpr (List.mem_map.mpr ⟨group, hgroup, rfl⟩))
      exact absurd (decide_eq_true (congrArg lower (htag group hgroup))) hnone
    | some record =>
      obtain ⟨hmem, hkey⟩ := recordOf_eq_some lower hrecord
      obtain ⟨other, hother, rfl⟩ := List.mem_map.mp hmem
      rw [htag other hother] at hkey
      rw [h.group_ext hother hgroup hkey]

theorem find?_node_name (h : Plain lower profile) (hnode : node ∈ profile.nodes) :
    profile.nodes.find? (fun other => other.name = node.name) = some node := by
  cases hfind : profile.nodes.find? fun other => other.name = node.name with
  | none =>
    exact absurd (decide_eq_true rfl) (List.find?_eq_none.mp hfind node hnode)
  | some other =>
    have hname : other.name = node.name := by simpa using List.find?_some hfind
    rw [h.node_ext (List.mem_of_find?_eq_some hfind) hnode (congrArg lower hname)]

/-- What a node's name is resolved to. -/
theorem resolved_node (h : Plain lower profile) (hnode : node ∈ profile.nodes)
    (seen : List JsString) : id ∈ resolved lower hash profile node.name seen ↔
      IsFirst hash profile node ∧ nodeId hash node = id := by
  have hspelled : Spelled lower profile node.name := by
    intro name hname heq
    have hall := List.inj_on_of_nodup_map h.distinct hname (node_mem_names hnode) heq
    exact hall
  rw [resolved, resolve]
  simp only [find?_name h hspelled, find?_node_name h hnode, Option.map_some, Option.mem_toList,
    get?_draftToId h]
  constructor
  · rintro ⟨first, hfirst, hname⟩
    have hsame := h.node_ext (List.mem_of_find?_eq_some hfirst) hnode (congrArg lower hname)
    have hid : nodeId hash first = id := by simpa using List.find?_some hfirst
    subst hsame
    exact ⟨by rw [IsFirst, hid]; exact hfirst, hid⟩
  · rintro ⟨hfirst, rfl⟩
    exact ⟨node, hfirst, rfl⟩

/-- What a group's name is resolved to. -/
theorem resolved_group (h : Plain lower profile) (hgroup : group ∈ profile.groups)
    (hseen : lower group.name ∉ seen) :
    id ∈ resolved lower hash profile group.name seen ↔ ∃ member ∈ group.memberNames,
      id ∈ resolved lower hash profile member (lower group.name :: seen) := by
  have hspelled : Spelled lower profile group.name := fun name hname heq =>
    List.inj_on_of_nodup_map h.distinct hname (group_mem_names hgroup) heq
  have hnone : profile.nodes.find? (fun node => node.name = group.name) = none :=
    List.find?_eq_none.mpr fun node hnode heq =>
      h.node_ne_group hnode hgroup (congrArg lower (of_decide_eq_true heq))
  have hrecord := (recordOf_name h hspelled).mpr ⟨group, hgroup, rfl, rfl⟩
  rw [resolved, resolve]
  simp only [find?_name h hspelled, hnone, Option.map_none, hseen, dite_false]
  split
  · rename_i hnoRecord
    rw [hrecord] at hnoRecord
    contradiction
  · rename_i record hsome
    obtain rfl := Option.some.inj (hrecord.symm.trans hsome)
    have hmembers : group.record.members = group.memberNames := stringArray_members h hgroup
    rw [List.mem_flatMap, hmembers]
    rfl

/-- Only a node's or a group's name is resolved to anything. -/
theorem resolved_other (h : Plain lower profile) (hspelled : Spelled lower profile name)
    (hid : id ∈ resolved lower hash profile name seen) :
    (∃ node ∈ profile.nodes, node.name = name) ∨
      ∃ group ∈ profile.groups, group.name = name ∧ lower name ∉ seen := by
  rw [resolved, resolve] at hid
  simp only [find?_name h hspelled] at hid
  cases hfind : profile.nodes.find? fun node => node.name = name with
  | some node =>
    exact .inl ⟨node, List.mem_of_find?_eq_some hfind, by simpa using List.find?_some hfind⟩
  | none =>
    simp only [hfind, Option.map_none] at hid
    split at hid
    · exact absurd hid List.not_mem_nil
    · rename_i hseen
      split at hid
      · exact absurd hid List.not_mem_nil
      · rename_i record hrecord
        obtain ⟨group, hgroup, hname, -⟩ := (recordOf_name h hspelled).mp hrecord
        exact .inr ⟨group, hgroup, hname, hseen⟩

/-! ## Paths -/

/-- A name stands for a node through the groups of these names. -/
inductive Path (profile : Profile ι) : JsString → List JsString → ProfileNode ι → Prop
  | node {node : ProfileNode ι} (hnode : node ∈ profile.nodes) : Path profile node.name [] node
  | group {group : ProfileGroup} {member : JsString} {names : List JsString} {node : ProfileNode ι}
      (hgroup : group ∈ profile.groups) (hmember : member ∈ group.memberNames)
      (hpath : Path profile member names node) :
      Path profile group.name (group.name :: names) node

variable {node : ProfileNode ι}

theorem Reaches.path (h : Reaches profile name node) : ∃ names, Path profile name names node := by
  induction h with
  | node hnode => exact ⟨[], .node hnode⟩
  | group hgroup hmember _ ih =>
    obtain ⟨names, hpath⟩ := ih
    exact ⟨_, .group hgroup hmember hpath⟩

theorem Path.names {names : List JsString} (h : Path profile name names node) :
    ∀ other ∈ names, ∃ group ∈ profile.groups, group.name = other := by
  induction h with
  | node => exact fun _ hmem => absurd hmem List.not_mem_nil
  | @group group _ _ _ hgroup _ _ ih =>
    intro other hmem
    rcases List.mem_cons.mp hmem with rfl | hmem
    · exact ⟨group, hgroup, rfl⟩
    · exact ih other hmem

/-- A path goes on from each of its groups. -/
theorem Path.suffix {names : List JsString} (h : Path profile name names node)
    (hmem : other ∈ names) :
    ∃ rest, Path profile other (other :: rest) node ∧ other :: rest <:+ names := by
  induction h with
  | node => exact absurd hmem List.not_mem_nil
  | @group group _ names _ hgroup hmember hpath ih =>
    rcases List.mem_cons.mp hmem with rfl | hmem
    · exact ⟨names, .group hgroup hmember hpath, List.suffix_refl _⟩
    · obtain ⟨rest, hrest, hsuffix⟩ := ih hmem
      exact ⟨rest, hrest, hsuffix.trans (List.suffix_cons _ _)⟩

/-- A path can do without going through a group twice. -/
theorem Path.exists_nodup {names : List JsString} (h : Path profile name names node) :
    ∃ names, Path profile name names node ∧ names.Nodup := by
  induction h with
  | node hnode => exact ⟨[], .node hnode, List.nodup_nil⟩
  | @group group _ _ _ hgroup hmember _ ih =>
    obtain ⟨names, hpath, hnodup⟩ := ih
    by_cases hmem : group.name ∈ names
    · obtain ⟨rest, hrest, hsuffix⟩ := hpath.suffix hmem
      exact ⟨_, hrest, hnodup.sublist hsuffix.sublist⟩
    · exact ⟨_, .group hgroup hmember hpath, List.nodup_cons.mpr ⟨hmem, hnodup⟩⟩

theorem Path.nodup_lower (h : Plain lower profile) {names : List JsString}
    (hpath : Path profile name names node) (hnodup : names.Nodup) : (names.map lower).Nodup := by
  refine hnodup.map_on fun a ha b hb heq => ?_
  obtain ⟨group, hgroup, rfl⟩ := hpath.names a ha
  obtain ⟨other, hother, rfl⟩ := hpath.names b hb
  rw [h.group_ext hgroup hother heq]

/-! ## The search follows the paths -/

/-- What is found is the first node of its identity. -/
theorem reaches_of_resolved (h : Plain lower profile) (hspelled : Spelled lower profile name)
    (hid : id ∈ resolved lower hash profile name seen) :
    ∃ node, Reaches profile name node ∧ IsFirst hash profile node ∧ nodeId hash node = id := by
  rcases resolved_other h hspelled hid with ⟨node, hnode, rfl⟩ | ⟨group, hgroup, rfl, hseen⟩
  · exact ⟨node, .node hnode, (resolved_node h hnode seen).mp hid⟩
  · obtain ⟨member, hmember, hfound⟩ := (resolved_group h hgroup hseen).mp hid
    have hlt := length_filter_seen_lt (lower ·.name) hgroup hseen
    obtain ⟨node, hreaches, hnode⟩ := reaches_of_resolved h
      (h.spelled group hgroup member hmember) hfound
    exact ⟨node, .group hgroup hmember hreaches, hnode⟩
termination_by (profile.groups.filter (lower ·.name ∉ seen)).length
decreasing_by exact hlt

/-- The first node of an identity is found along a path that avoids what has been seen. -/
theorem Path.resolved (h : Plain lower profile) {names : List JsString}
    (hpath : Path profile name names node) (hfirst : IsFirst hash profile node)
    (hnodup : (names.map lower).Nodup) (hseen : ∀ other ∈ names, lower other ∉ seen) :
    nodeId hash node ∈ resolved lower hash profile name seen := by
  induction hpath generalizing seen with
  | node hnode => exact (resolved_node h hnode seen).mpr ⟨hfirst, rfl⟩
  | @group group member names node hgroup hmember _ ih =>
    obtain ⟨hnew, hrest⟩ := List.nodup_cons.mp hnodup
    refine (resolved_group h hgroup (hseen _ List.mem_cons_self)).mpr ⟨member, hmember,
      ih hfirst hrest fun other hother hin => ?_⟩
    rcases List.mem_cons.mp hin with heq | hin
    · exact hnew (heq ▸ List.mem_map.mpr ⟨other, hother, rfl⟩)
    · exact hseen other (List.mem_cons_of_mem _ hother) hin

/-- The ids an imported group is made of. -/
theorem mem_members_resolved (h : Plain lower profile) {group : ProfileGroup}
    (hgroup : group ∈ profile.groups) : (∃ member ∈ group.memberNames,
      id ∈ resolved lower hash profile member [lower group.name]) ↔
      ∃ node, GroupReaches profile group node ∧ IsFirst hash profile node ∧
        nodeId hash node = id := by
  constructor
  · rintro ⟨member, hmember, hid⟩
    obtain ⟨node, hreaches, hnode⟩ := reaches_of_resolved h
      (h.spelled group hgroup member hmember) hid
    exact ⟨node, ⟨member, hmember, hreaches⟩, hnode⟩
  · rintro ⟨node, ⟨member, hmember, hreaches⟩, hfirst, rfl⟩
    obtain ⟨names, hpath⟩ := (Reaches.group hgroup hmember hreaches).path
    obtain ⟨names, hpath, hnodup⟩ := hpath.exists_nodup
    have hlower := hpath.nodup_lower h hnodup
    generalize hname : group.name = name at hpath
    cases hpath with
    | node hnode =>
      exact absurd (congrArg lower hname.symm) (h.node_ne_group hnode hgroup)
    | group hother hmember' hpath' =>
      have hsame := h.group_ext hother hgroup (congrArg lower hname.symm)
      subst hsame
      obtain ⟨hnew, hrest⟩ := List.nodup_cons.mp hlower
      refine ⟨_, hmember', hpath'.resolved h hfirst hrest fun other hother hin => ?_⟩
      exact hnew (List.mem_singleton.mp hin ▸ List.mem_map.mpr ⟨other, hother, rfl⟩)

/-! ## Imported groups -/

theorem mem_uniqueIds : id ∈ uniqueIds values ↔ id ∈ values := by
  unfold uniqueIds
  induction values using List.reverseRec with
  | nil => rfl
  | append_singleton values value ih =>
    rw [List.foldl_append, List.foldl_cons, List.foldl_nil, List.mem_append, List.mem_singleton,
      ← ih]
    split
    · rename_i hmem
      exact ⟨.inl, fun h => h.elim (fun h => h) fun heq => heq ▸ hmem⟩
    · rw [List.mem_append, List.mem_singleton]

theorem nodup_uniqueIds (values : List JsString) : (uniqueIds values).Nodup := by
  unfold uniqueIds
  induction values using List.reverseRec with
  | nil => exact List.nodup_nil
  | append_singleton values value ih =>
    rw [List.foldl_append, List.foldl_cons, List.foldl_nil]
    split
    · exact ih
    · rename_i hnew
      exact List.nodup_append.mpr ⟨ih, List.nodup_singleton _, fun a ha b hb heq =>
        hnew (List.mem_singleton.mp hb ▸ heq ▸ ha)⟩

/-- A group as it is imported, if it is. -/
def importedGroup (lower groupId : JsString → JsString) (hash : ι → JsString)
    (profile : Profile ι) (group : ProfileGroup) : InternalProxyGroup where
  id := groupId group.record.tag
  name := group.record.tag
  type := group.type
  nodeIds := uniqueIds (group.record.members.flatMap fun member =>
    resolved lower hash profile member [lower group.record.tag])

theorem importedGroups_eq (lower groupId : JsString → JsString) (hash : ι → JsString)
    (profile : Profile ι) :
    importedGroups lower groupId hash profile =
      (profile.groups.map (importedGroup lower groupId hash profile)).filter
        (0 < ·.nodeIds.length) := by
  rw [importedGroups, buildGroups, List.map_map]
  rfl

theorem mem_importedGroup (h : Plain lower profile) (groupId : JsString → JsString)
    (hgroup : group ∈ profile.groups) :
    id ∈ (importedGroup lower groupId hash profile group).nodeIds ↔
      ∃ node, GroupReaches profile group node ∧ IsFirst hash profile node ∧
        nodeId hash node = id := by
  have htag : group.record.tag = group.name := h.groups group hgroup
  have hmembers : group.record.members = group.memberNames := stringArray_members h hgroup
  rw [importedGroup, mem_uniqueIds, List.mem_flatMap, htag, hmembers]
  exact mem_members_resolved h hgroup

theorem Reaches.mem (h : Reaches profile name node) : node ∈ profile.nodes := by
  induction h with
  | node hnode => exact hnode
  | group _ _ _ ih => exact ih

/-- The ids a group should have. -/
theorem final_iff : (∃ final ∈ importedNodes hash profile, final.id = id ∧
      ∃ node, GroupReaches profile group node ∧ nodeId hash node = final.id) ↔
      ∃ node, GroupReaches profile group node ∧ nodeId hash node = id := by
  constructor
  · rintro ⟨final, -, rfl, hnode⟩
    exact hnode
  · rintro ⟨node, hreaches, rfl⟩
    have hnode : node ∈ profile.nodes := by
      obtain ⟨member, -, hmember⟩ := hreaches
      exact hmember.mem
    obtain ⟨final, hfinal, hid⟩ := mem_importedNodes_id.mpr ⟨node, hnode, rfl⟩
    exact ⟨final, hfinal, hid, node, hreaches, hid.symm⟩

/-- Two nodes of one identity and a group of both, within a group. -/
def nested : Profile Nat where
  nodes := [⟨js "a", js "proxy-1", 1⟩, ⟨js "b", js "proxy-2", 1⟩]
  groups :=
    [⟨js "inner", js "Proxy group", .selector, some [some (js "b"), some (js "a")]⟩,
      ⟨js "outer", js "Proxy group", .urltest, some [some (js "inner")]⟩]

theorem plain_nested : Plain toLowerCase nested := by
  refine ⟨by decide +kernel, by decide +kernel, by decide +kernel, ?_, by decide +kernel⟩
  intro group hgroup
  have hplain : ∀ member ∈ [js "a", js "b", js "inner"], PlainMember (some member) :=
    fun member hmember => ⟨member, rfl, by revert member; decide +kernel⟩
  simp only [nested, List.mem_cons, List.not_mem_nil, or_false] at hgroup
  rcases hgroup with rfl | rfl
  · refine ⟨by decide, ?_⟩
    simp only [Option.getD_some, List.mem_cons, List.not_mem_nil, or_false, forall_eq_or_imp,
      forall_eq]
    exact ⟨hplain _ (by decide), hplain _ (by decide)⟩
  · refine ⟨by decide, ?_⟩
    simp only [Option.getD_some, List.mem_cons, List.not_mem_nil, or_false, forall_eq]
    exact hplain _ (by decide)

end StonePlus.Proxy.ProfileParser
