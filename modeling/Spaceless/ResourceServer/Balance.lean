import Spaceless.Logic.Load
import Spaceless.Logic.Machine
import Spaceless.ResourceServer.Serialization

/-!
# Groups on storage nodes

A group is placed on a node that no group uses, or else on one of the least
load, and the use count of a node goes up and down with its groups.  So the
counts are those of the live groups, and registrations keep them level.
-/

namespace Spaceless
namespace ResourceServer

open Logic Foundation

/-- The live groups of a node. -/
def SharingGroupManager.groupsOn (groups : SharingGroupManager)
    (nodeId : Int) : Nat :=
  groups.groupList.count fun group => group.nodeId == nodeId

/-- The use count of a node. -/
def StorageNodeManager.load (nodes : StorageNodeManager) (nodeId : Int) :
    Option Int :=
  (nodes.findNode nodeId).map StorageNode.useCounting

namespace Server

/-- `SharingGroupManager::remove_group`. -/
def removeGroup (userId groupId : Int) : Action Fault Server Unit := do
  let group ← getGroup groupId
  Action.throwIf (group.ownerId ≠ userId)
    ErrorCode.errGroupNotPermitNeedOwner.fault
  let node ← getNode group.nodeId
  onNodes (Action.modify fun nodes =>
    { nodes with
      nodeList := nodes.nodeList.insert group.nodeId
        { node with useCounting := node.useCounting - 1 } })
  onGroups (Action.modify fun groups =>
    { groups with groupList := groups.groupList.erase groupId })

end Server

inductive GroupEvent
  | registerNode (ip : Text) (port serviceId : Int)
  | registerGroup (userId : Int) (groupName : Text)
  | removeGroup (userId groupId : Int)

namespace GroupEvent

/-- The managers after a call; a call that throws leaves what it did. -/
def next (server : Server) : GroupEvent → Server
  | .registerNode ip port serviceId =>
      { server with nodes := server.nodes.registerNode ip port serviceId }
  | .registerGroup userId groupName =>
      (Server.registerGroup userId groupName).after server
  | .removeGroup userId groupId =>
      (Server.removeGroup userId groupId).after server

/-- A group is not registered before the first node. -/
def Possible (server : Server) : GroupEvent → Prop
  | .registerGroup _ _ => server.nodes.nodeList ≠ ∅
  | _ => True

def IsRegisterGroup : GroupEvent → Prop
  | .registerGroup _ _ => True
  | _ => False

instance (server : Server) (event : GroupEvent) :
    Decidable (event.Possible server) := by
  unfold Possible
  cases event <;> infer_instance

end GroupEvent

/-- The managers from start-up on. -/
def groupMachine : Machine Server GroupEvent where
  start := Server.init
  step server event :=
    if event.Possible server then some (event.next server) else none

/-- Nodes and groups are stored under their ids, every group is on a node, and
each node counts its groups. -/
structure Counted (server : Server) : Prop where
  keyed : server.nodes.Keyed
  counts : ∀ nodeId node, server.nodes.findNode nodeId = some node →
    node.useCounting = server.groups.groupsOn nodeId
  groups : ∀ groupId group, server.groups.findGroup groupId = some group →
    groupId < server.groups.nextId ∧
      (server.nodes.findNode group.nodeId).isSome = true

/-! ## Counts of groups -/

namespace SharingGroupManager

variable {groups : SharingGroupManager} {groupId : Int}

theorem groupsOn_setGroup (fresh : groups.findGroup groupId = none)
    (group : SharingGroup) (nodeId : Int) :
    (groups.setGroup groupId group).groupsOn nodeId =
      groups.groupsOn nodeId + if group.nodeId = nodeId then 1 else 0 := by
  have counted := Table.count_insert_of_absent fresh group
    fun group => group.nodeId == nodeId
  simpa [groupsOn, setGroup] using counted

theorem groupsOn_erase {group : SharingGroup}
    (found : groups.findGroup groupId = some group) (nodeId : Int) :
    groups.groupsOn nodeId =
      SharingGroupManager.groupsOn
        { groups with groupList := groups.groupList.erase groupId } nodeId +
          if group.nodeId = nodeId then 1 else 0 := by
  have counted := Table.count_erase_of_bound found
    fun group => group.nodeId == nodeId
  simpa [groupsOn] using counted

/-- A node without groups. -/
theorem groupsOn_eq_zero {nodeId : Int}
    (elsewhere : ∀ groupId group, groups.findGroup groupId = some group →
      group.nodeId ≠ nodeId) : groups.groupsOn nodeId = 0 := by
  apply Table.count_eq_zero_iff.mpr
  intro groupId group found
  simpa using elsewhere groupId group found

end SharingGroupManager

/-! ## The choice of a node -/

namespace StorageNodeManager

variable {nodes : StorageNodeManager}

theorem load_of_findNode {nodeId : Int} {node : StorageNode}
    (found : nodes.findNode nodeId = some node) :
    nodes.load nodeId = some node.useCounting := by
  rw [load, found]
  rfl

/-- A node that no group uses is one of the least load, and otherwise the scan
finds one. -/
theorem isLeast_of_getFitNode {nodeId : Int} {node : StorageNode}
    (natural : ∀ other found, nodes.findNode other = some found →
      0 ≤ found.useCounting)
    (fit : nodes.getFitNode = .ok (nodeId, node)) :
    IsLeast nodes.load nodeId := by
  have stored := findNode_of_getFitNode fit
  refine ⟨node.useCounting, load_of_findNode stored, ?_⟩
  intro other high atOther
  obtain ⟨found, foundOther, rfl⟩ := Option.map_eq_some_iff.mp atOther
  unfold getFitNode at fit
  split at fit
  · next entry free =>
      cases fit
      have unused := (Table.findIf_eq_some free).2
      rw [beq_iff_eq] at unused
      rw [unused]
      exact natural other found foundOther
  · split at fit
    · cases fit
    · next first rest listed =>
        have least := leastBy_le
          (fun entry : Int × StorageNode => entry.2.useCounting) first rest
        rw [← listed] at least
        have chosen : leastBy
            (fun entry : Int × StorageNode => entry.2.useCounting) first
              rest = (nodeId, node) := Except.ok.inj fit
        rw [chosen] at least
        exact least (other, found)
          (Std.ExtTreeMap.mem_toList_iff_getElem?_eq_some.mpr foundOther)

/-- The use count of the node of a new group is raised. -/
theorem load_raise {nodeId : Int} {node : StorageNode}
    (found : nodes.findNode nodeId = some node) (change : Int) :
    StorageNodeManager.load
        { nodes with
          nodeList := nodes.nodeList.insert nodeId
            { node with useCounting := node.useCounting + change } } =
      fun other => if nodeId = other then (nodes.load other).map (· + change)
        else nodes.load other := by
  funext other
  simp only [load, findNode, Table.lookup_insert]
  split
  · next same =>
      subst same
      rw [show nodes.nodeList[nodeId]? = some node from found]
      rfl
  · rfl

end StorageNodeManager

/-! ## The counts are right -/

section Calls

variable {server : Server}

theorem Counted.natural (counted : Counted server) :
    ∀ nodeId node, server.nodes.findNode nodeId = some node →
      0 ≤ node.useCounting := by
  intro nodeId node found
  rw [counted.counts nodeId node found]
  exact Int.natCast_nonneg _

theorem counted_init : Counted Server.init where
  keyed := StorageNodeManager.keyed_init
  counts nodeId node found := by
    simp [Server.init, StorageNodeManager.init,
      StorageNodeManager.findNode] at found
  groups groupId group found := by
    simp [Server.init, SharingGroupManager.init,
      SharingGroupManager.findGroup] at found

/-- A new node has no group. -/
theorem Counted.registerNode (counted : Counted server)
    (ip : Text) (port serviceId : Int) :
    Counted
      { server with nodes := server.nodes.registerNode ip port serviceId } where
  keyed := counted.keyed.registerNode ip port serviceId
  counts := by
    intro nodeId node found
    rcases Table.lookup_of_lookup_insertIfNew found with old | ⟨rfl, rfl⟩
    · exact counted.counts nodeId node old
    · symm
      apply Int.ofNat_eq_zero.mpr
      apply SharingGroupManager.groupsOn_eq_zero
      intro groupId group isGroup onNode
      obtain ⟨host, hosted⟩ := Option.isSome_iff_exists.mp
        (counted.groups groupId group isGroup).2
      have below := (counted.keyed group.nodeId host hosted).2
      rw [onNode] at below
      exact Int.lt_irrefl _ below
  groups groupId group found := by
    obtain ⟨below, hosted⟩ := counted.groups groupId group found
    refine ⟨below, ?_⟩
    obtain ⟨host, found⟩ := Option.isSome_iff_exists.mp hosted
    have kept : (server.nodes.registerNode ip port serviceId).findNode
        group.nodeId = some host := by
      have fresh : server.nodes.findNode server.nodes.nextId = none := by
        cases present : server.nodes.findNode server.nodes.nextId with
        | none => rfl
        | some node =>
            exact absurd (counted.keyed _ node present).2 (Int.lt_irrefl _)
      have differs : server.nodes.nextId ≠ group.nodeId := by
        intro same
        rw [same, found] at fresh
        cases fresh
      unfold StorageNodeManager.registerNode StorageNodeManager.findNode
      rw [Table.insertIfNew_of_fresh _ fresh,
        Table.lookup_insert_of_ne _ _ differs]
      exact found
    rw [kept]
    rfl

/-- What `register_group` does, and what a refusal leaves. -/
theorem registerGroup_places (counted : Counted server) (userId : Int)
    (groupName : Text) :
    Action.Ensures (Server.registerGroup userId groupName) server
      (fun groupId later => ∃ nodeId node files rootDirId,
        server.nodes.getFitNode = .ok (nodeId, node) ∧
        groupId = server.groups.nextId ∧
        later =
          { server with
            files := files
            nodes := { server.nodes with
              nodeList := server.nodes.nodeList.insert nodeId
                { node with useCounting := node.useCounting + 1 } }
            groups := { server.groups.setGroup server.groups.nextId
                (SharingGroup.init server.groups.nextId groupName userId
                  rootDirId node.nodeId) with
              nextId := server.groups.nextId + 1 } })
      (fun _ later => ∃ files, later = { server with files := files }) := by
  simp only [Server.registerGroup, Server.onFiles, Server.onGroups,
    Server.onNodes, Action.ensures_bind, Action.ensures_read,
    Action.ensures_throwIf, Action.ensures_zoom, Action.ensures_check,
    Action.ensures_modify, Action.ensures_pure]
  refine ⟨fun _ => ⟨server.files, rfl⟩, fun _ => ?_⟩
  refine Action.ensures_of_forall ?_ fun _ files => ⟨files, rfl⟩
  intro rootDirId files
  refine ⟨?_, fun _ _ => ⟨files, rfl⟩⟩
  rintro ⟨nodeId, node⟩ fit
  have free : server.groups.findGroup server.groups.nextId = none := by
    cases found : server.groups.findGroup server.groups.nextId with
    | none => rfl
    | some group =>
        exact absurd (counted.groups _ group found).1 (Int.lt_irrefl _)
  refine ⟨fun present => absurd free present, fun _ => ?_⟩
  exact ⟨nodeId, node, files, rootDirId, fit, trivial, rfl⟩

/-- A change of a use count that the groups explain. -/
theorem Counted.recount (counted : Counted server) {nodeId : Int}
    {node : StorageNode} (found : server.nodes.findNode nodeId = some node)
    (change : Int) {groups : SharingGroupManager}
    {files : SharingFileManager}
    (onOthers : ∀ other, nodeId ≠ other →
      groups.groupsOn other = server.groups.groupsOn other)
    (onNode : (groups.groupsOn nodeId : Int) =
      server.groups.groupsOn nodeId + change)
    (known : ∀ groupId group, groups.findGroup groupId = some group →
      groupId < groups.nextId ∧
        (server.nodes.findNode group.nodeId).isSome = true) :
    Counted
      { server with
        files := files
        groups := groups
        nodes := { server.nodes with
          nodeList := server.nodes.nodeList.insert nodeId
            { node with useCounting := node.useCounting + change } } } where
  keyed := counted.keyed.insert found rfl
  counts := by
    intro other stored foundOther
    simp only [StorageNodeManager.findNode, Table.lookup_insert] at foundOther
    split at foundOther
    · next same =>
        cases foundOther
        subst same
        rw [onNode, counted.counts nodeId node found]
    · next different =>
        rw [onOthers other different]
        exact counted.counts other stored foundOther
  groups groupId group isGroup := by
    obtain ⟨below, hosted⟩ := known groupId group isGroup
    refine ⟨below, ?_⟩
    simp only [StorageNodeManager.findNode, Table.lookup_insert]
    split
    · rfl
    · exact hosted

theorem Counted.registerGroup (counted : Counted server) (userId : Int)
    (groupName : Text) :
    Counted ((Server.registerGroup userId groupName).after server) := by
  refine Action.ensures_after.mp
    ((registerGroup_places counted userId groupName).mono ?_ ?_)
  · rintro _ _ ⟨nodeId, node, files, rootDirId, fit, -, rfl⟩
    have found := StorageNodeManager.findNode_of_getFitNode fit
    have own : node.nodeId = nodeId := (counted.keyed nodeId node found).1
    have free : server.groups.findGroup server.groups.nextId = none := by
      cases present : server.groups.findGroup server.groups.nextId with
      | none => rfl
      | some group =>
          exact absurd (counted.groups _ group present).1 (Int.lt_irrefl _)
    let newGroup := SharingGroup.init server.groups.nextId groupName userId
      rootDirId node.nodeId
    have placed (other : Int) :
        (server.groups.setGroup server.groups.nextId newGroup).groupsOn
            other =
          server.groups.groupsOn other + if node.nodeId = other then 1 else 0 :=
      SharingGroupManager.groupsOn_setGroup free newGroup other
    refine counted.recount found 1 ?_ ?_ ?_
    · intro other different
      refine (placed other).trans ?_
      rw [if_neg (own.trans_ne different), Nat.add_zero]
    · have here := placed nodeId
      rw [if_pos own] at here
      exact_mod_cast here
    · intro groupId group isGroup
      rcases Table.lookup_of_lookup_insert isGroup with ⟨rfl, rfl⟩ | old
      · refine ⟨Int.lt_add_one_of_le (Int.le_refl _), ?_⟩
        change (server.nodes.findNode node.nodeId).isSome = true
        rw [own, found]
        rfl
      · obtain ⟨below, hosted⟩ := counted.groups groupId group old
        exact ⟨Int.lt_add_one_of_le (Int.le_of_lt below), hosted⟩
  · rintro _ _ ⟨files, rfl⟩
    exact ⟨counted.keyed, counted.counts, counted.groups⟩

/-- The owner of a group removes it, or nothing changes. -/
theorem Counted.removeGroup (counted : Counted server)
    (userId groupId : Int) :
    Counted ((Server.removeGroup userId groupId).after server) := by
  refine Action.ensures_after.mp ?_
  simp only [Server.removeGroup, Server.getGroup, Server.getNode,
    Server.onGroups, Server.onNodes, Action.ensures_bind,
    Action.ensures_throwIf, Action.ensures_zoom, Action.ensures_check,
    Action.ensures_modify]
  refine ⟨?_, fun _ _ => counted⟩
  intro group isGroup
  refine ⟨fun _ => counted, fun _ => ⟨?_, fun _ _ => counted⟩⟩
  intro node found
  have stored : server.groups.findGroup groupId = some group := by
    unfold SharingGroupManager.getGroup at isGroup
    split at isGroup
    · next present => rw [present, Except.ok.inj isGroup]
    · cases isGroup
  have removed := SharingGroupManager.groupsOn_erase stored
  refine counted.recount (StorageNodeManager.findNode_of_getNode found) (-1)
    ?_ ?_ ?_
  · intro other different
    have elsewhere := removed other
    rw [if_neg different, Nat.add_zero] at elsewhere
    exact elsewhere.symm
  · have here := removed group.nodeId
    rw [if_pos rfl] at here
    omega
  · intro other kept present
    exact counted.groups other kept (Table.lookup_of_lookup_erase present)

theorem Counted.next (counted : Counted server) (event : GroupEvent) :
    Counted (event.next server) := by
  cases event with
  | registerNode ip port serviceId =>
      exact counted.registerNode ip port serviceId
  | registerGroup userId groupName =>
      exact counted.registerGroup userId groupName
  | removeGroup userId groupId => exact counted.removeGroup userId groupId

/-! ## Runs -/

theorem counted_of_reachable (reachable : groupMachine.Reachable server) :
    Counted server := by
  apply Machine.Reachable.invariant counted_init ?_ reachable
  intro server event next counted stepped
  simp only [groupMachine, Option.ite_none_right_eq_some,
    Option.some.injEq] at stepped
  rw [← stepped.2]
  exact counted.next event

/-- A registration raises the count of a node of the least load, or none. -/
theorem load_registerGroup (counted : Counted server) (userId : Int)
    (groupName : Text) :
    ((Server.registerGroup userId groupName).after server).nodes.load =
        server.nodes.load ∨
      ∃ nodeId, IsLeast server.nodes.load nodeId ∧
        ((Server.registerGroup userId groupName).after server).nodes.load =
          placeAt nodeId server.nodes.load := by
  let raises (later : Server) : Prop :=
    later.nodes.load = server.nodes.load ∨
      ∃ nodeId, IsLeast server.nodes.load nodeId ∧
        later.nodes.load = placeAt nodeId server.nodes.load
  suffices ensures : Action.Ensures (Server.registerGroup userId groupName)
      server (fun _ => raises) (fun _ => raises) from
    Action.ensures_after.mp ensures
  refine (registerGroup_places counted userId groupName).mono ?_ ?_
  · rintro _ _ ⟨nodeId, node, files, rootDirId, fit, -, rfl⟩
    refine Or.inr ⟨nodeId, StorageNodeManager.isLeast_of_getFitNode
      counted.natural fit, ?_⟩
    exact StorageNodeManager.load_raise
      (StorageNodeManager.findNode_of_getFitNode fit) 1
  · rintro _ _ ⟨files, rfl⟩
    exact Or.inl rfl

/-- Registrations of groups keep level loads level. -/
theorem level_of_registrations (counted : Counted server)
    (level : Level server.nodes.load) {events : List GroupEvent}
    (registrations : ∀ event ∈ events, event.IsRegisterGroup)
    {later : Server} (run : groupMachine.run server events = some later) :
    Level later.nodes.load := by
  induction events generalizing server with
  | nil =>
      cases run
      exact level
  | cons event events inductionHypothesis =>
      obtain ⟨next, stepped, rest⟩ := Option.bind_eq_some_iff.mp run
      simp only [groupMachine, Option.ite_none_right_eq_some,
        Option.some.injEq] at stepped
      obtain ⟨-, rfl⟩ := stepped
      refine inductionHypothesis (counted.next event) ?_
        (fun other member =>
          registrations other (List.mem_cons_of_mem _ member)) rest
      cases event with
      | registerNode | removeGroup =>
          exact absurd (registrations _ List.mem_cons_self) id
      | registerGroup userId groupName =>
          rcases load_registerGroup counted userId groupName with
            same | ⟨nodeId, least, raised⟩
          · rw [GroupEvent.next, same]
            exact level
          · rw [GroupEvent.next, raised]
            exact level.placeAt least

/-- The use counts are those of the live groups, a new group goes to a node of
the least load, and registrations from equal loads keep them level. -/
structure FairlyPlaced (server : Server) : Prop where
  counts : ∀ nodeId node, server.nodes.findNode nodeId = some node →
    node.useCounting = server.groups.groupsOn nodeId
  least : ∀ userId groupName groupId later,
    Server.registerGroup userId groupName server = (.ok groupId, later) →
    ∃ group, later.groups.findGroup groupId = some group ∧
      IsLeast server.nodes.load group.nodeId
  level : (∀ first second high low, server.nodes.load first = some high →
      server.nodes.load second = some low → high = low) →
    ∀ events, (∀ event ∈ events, event.IsRegisterGroup) →
    ∀ later, groupMachine.run server events = some later →
      Level later.nodes.load

theorem fairlyPlaced_of_reachable
    (reachable : groupMachine.Reachable server) : FairlyPlaced server := by
  have counted := counted_of_reachable reachable
  refine ⟨counted.counts, ?_, ?_⟩
  · intro userId groupName groupId later registered
    obtain ⟨nodeId, node, files, rootDirId, fit, rfl, rfl⟩ :=
      (registerGroup_places counted userId groupName).of_ok registered
    refine ⟨SharingGroup.init server.groups.nextId groupName userId rootDirId
      node.nodeId, Table.lookup_insert_self _ _ _, ?_⟩
    have own : node.nodeId = nodeId :=
      (counted.keyed nodeId node
        (StorageNodeManager.findNode_of_getFitNode fit)).1
    have least := StorageNodeManager.isLeast_of_getFitNode counted.natural fit
    rw [← own] at least
    exact least
  · intro equal events registrations later run
    exact level_of_registrations counted (level_of_equal equal) registrations
      run

/-- Two nodes, with one group registered and another one removed again. -/
theorem fairlyPlaced_twoNodes : ∃ server,
    groupMachine.Reaches
      [.registerNode ['x'] 1 1, .registerNode ['y'] 1 2,
        .registerGroup 1 ['g'], .registerGroup 1 ['h'],
        .removeGroup 1 1] server ∧ FairlyPlaced server := by
  obtain ⟨server, reaches⟩ : ∃ server, groupMachine.Reaches
      [.registerNode ['x'] 1 1, .registerNode ['y'] 1 2,
        .registerGroup 1 ['g'], .registerGroup 1 ['h'],
        .removeGroup 1 1] server := ⟨_, rfl⟩
  exact ⟨server, reaches, fairlyPlaced_of_reachable ⟨_, reaches⟩⟩

end Calls

end ResourceServer
end Spaceless
