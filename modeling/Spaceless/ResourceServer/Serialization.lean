import Spaceless.Logic.Json
import Spaceless.ResourceServer.Arrangement

/-!
# The documents that the managers write

Each class writes its members as an object, under the names of the members,
and reads them back.  A document that is read back gives the managers that
were written, up to the services of the nodes, which only the running process
knows.

Every member is read back at the type that it was written from, so that the
conversions of the readers never leave the range of a type.
-/

namespace Spaceless
namespace ResourceServer

open Logic Foundation Protocol SharingFileManager

/-! ## The macros -/

/-- A reader throws on a member that is missing or of another type. -/
def readMember {α : Type} (member : Option α) : Except Fault α :=
  match member with
  | some value => .ok value
  | none => .error (.exception .standard)

@[simp] theorem readMember_some {α : Type} (value : α) :
    readMember (some value) = .ok value := rfl

@[simp] theorem ok_bind {α β : Type} (value : α)
    (next : α → Except Fault β) : (Except.ok value >>= next) = next value :=
  rfl

/-- `SERIALIZE_ARRAY`, for an array of ids. -/
def serializeArray (object : JsonObject) (name : String)
    (member : List Int) : JsonObject :=
  object.set name (.array (member.map Json.int))

/-- `DESERIALIZE_ARRAY`, into an empty array of ids. -/
def deserializeArray (object : JsonObject) (name : String) :
    Except Fault (List Int) := do
  let array ← readMember (object.getArray name)
  array.mapM fun item => readMember item.toInt

/-- `SERIALIZE_MAP_CUSTOMER` and `SERIALIZE_MAP_CUSTOMER_EX`: the values in
the order of their keys. -/
def serializeMapCustomer {ν : Type} (object : JsonObject) (name : String)
    (member : Table Int ν) (serialize : Int × ν → JsonObject) : JsonObject :=
  object.set name
    (.array (member.toList.map fun pair => .object (serialize pair)))

/-- `DESERIALIZE_MAP_CUSTOMER` and `DESERIALIZE_MAP_CUSTOMER_EX`, into an
empty map: each value is inserted under the key that it holds. -/
def deserializeMapCustomer {ν : Type} (object : JsonObject) (name : String)
    (deserialize : JsonObject → Except Fault (Int × ν)) :
    Except Fault (Table Int ν) := do
  let array ← readMember (object.getArray name)
  let pairs ← array.mapM fun item => do
    let itemObject ← readMember item.toObject
    deserialize itemObject
  pure (Table.insertAll ∅ pairs)

@[simp] theorem deserializeArray_set_self (object : JsonObject)
    (name : String) (member : List Int) :
    deserializeArray (object.set name (.array (member.map Json.int))) name =
      .ok member := by
  have items : (member.map Json.int).mapM (fun item =>
      readMember item.toInt) = .ok (member.map id) :=
    Json.mapM_map_eq_pure Json.int (fun item => readMember item.toInt) id
      (fun _ => rfl) member
  rw [List.map_id] at items
  rw [deserializeArray, JsonObject.getArray_set_self]
  exact items

@[simp] theorem deserializeArray_set_of_ne (object : JsonObject)
    {name other : String} (value : Json) (different : name ≠ other) :
    deserializeArray (object.set name value) other =
      deserializeArray object other := by
  rw [deserializeArray, deserializeArray,
    JsonObject.getArray_set_of_ne object value different]

/-- Values that are read back one by one come back as a table. -/
theorem deserializeMapCustomer_serializeMapCustomer {ν : Type}
    (object : JsonObject) (name : String) (member : Table Int ν)
    {serialize : Int × ν → JsonObject}
    {deserialize : JsonObject → Except Fault (Int × ν)}
    {result : Int × ν → Int × ν}
    (readsBack : ∀ pair, deserialize (serialize pair) = .ok (result pair)) :
    deserializeMapCustomer (serializeMapCustomer object name member serialize)
        name deserialize =
      .ok (Table.insertAll ∅ (member.toList.map result)) := by
  have items : (member.toList.map fun pair =>
      Json.object (serialize pair)).mapM (fun item => do
        let itemObject ← readMember item.toObject
        deserialize itemObject) = .ok (member.toList.map result) :=
    Json.mapM_map_eq_pure _ _ result readsBack member.toList
  rw [deserializeMapCustomer, serializeMapCustomer,
    JsonObject.getArray_set_self, readMember_some, ok_bind, items]
  rfl

@[simp] theorem getInt_serializeMapCustomer_of_ne {ν : Type}
    (object : JsonObject) {name other : String} (member : Table Int ν)
    (serialize : Int × ν → JsonObject) (different : name ≠ other) :
    (serializeMapCustomer object name member serialize).getInt other =
      object.getInt other :=
  JsonObject.getInt_set_of_ne object _ different

/-! ## Groups -/

namespace SharingGroup

def serializeJson (group : SharingGroup) : JsonObject :=
  let object := JsonObject.set [] "m_group_id" (.int group.groupId)
  let object := object.set "m_group_name" (.text group.groupName)
  let object := object.set "m_owner_id" (.int group.ownerId)
  let object := object.set "m_root_dir_id" (.int group.rootDirId)
  let object := object.set "m_node_id" (.int group.nodeId)
  let object := serializeArray object "m_manager_list" group.managerList
  serializeArray object "m_member_list" group.memberList

def deserializeJson (object : JsonObject) : Except Fault SharingGroup := do
  let groupId ← readMember (object.getInt "m_group_id")
  let groupName ← readMember (object.getText "m_group_name")
  let ownerId ← readMember (object.getInt "m_owner_id")
  let rootDirId ← readMember (object.getInt "m_root_dir_id")
  let nodeId ← readMember (object.getInt "m_node_id")
  let managerList ← deserializeArray object "m_manager_list"
  let memberList ← deserializeArray object "m_member_list"
  pure
    { groupId := groupId, groupName := groupName, ownerId := ownerId
      rootDirId := rootDirId, nodeId := nodeId
      managerList := managerList, memberList := memberList }

theorem deserializeJson_serializeJson (group : SharingGroup) :
    deserializeJson group.serializeJson = .ok group := by
  simp [deserializeJson, serializeJson, serializeArray]

end SharingGroup

namespace SharingGroupManager

def serializeJson (manager : SharingGroupManager) : JsonObject :=
  let object := JsonObject.set [] "m_next_id" (.int manager.nextId)
  serializeMapCustomer object "m_group_list" manager.groupList
    fun pair => pair.2.serializeJson

/-- `deserialize` of a fresh manager. -/
def deserializeJson (object : JsonObject) :
    Except Fault SharingGroupManager := do
  let nextId ← readMember (object.getInt "m_next_id")
  let groupList ← deserializeMapCustomer object "m_group_list" fun item => do
    let group ← SharingGroup.deserializeJson item
    pure (group.groupId, group)
  pure { groupList := groupList, nextId := nextId }

/-- A document of the groups holds what `serialize` lists. -/
theorem deserializeJson_serializeJson (manager : SharingGroupManager) :
    deserializeJson manager.serializeJson =
      .ok (deserialize manager.serialize) := by
  have readsBack (pair : Int × SharingGroup) :
      (do
        let group ← SharingGroup.deserializeJson pair.2.serializeJson
        pure (group.groupId, group)) =
          (Except.ok (pair.2.groupId, pair.2) : Except Fault _) := by
    rw [SharingGroup.deserializeJson_serializeJson, ok_bind]
    rfl
  rw [deserializeJson, serializeJson,
    deserializeMapCustomer_serializeMapCustomer _ _ _ readsBack]
  simp only [deserialize, serialize, List.map_map]
  simp
  rfl

end SharingGroupManager

/-! ## Files -/

namespace FileType

/-- The numbers of the enumerators. -/
def toInt : FileType → Int
  | .directory => 0
  | .generalFile => 1
  | .storageFile => 2

def ofInt (number : Int) : Option FileType :=
  match number with
  | 0 => some .directory
  | 1 => some .generalFile
  | 2 => some .storageFile
  | _ => none

@[simp] theorem ofInt_toInt (fileType : FileType) :
    ofInt fileType.toInt = some fileType := by
  cases fileType <;> rfl

end FileType

namespace SharingFile

/-- `SharingFile::serialize`; the id of a file is its key. -/
def serializeBase (fileId : Int) (file : SharingFile) : JsonObject :=
  let object := JsonObject.set [] "file_id" (.int fileId)
  let object := object.set "file_type" (.int file.fileType.toInt)
  object.set "file_name" (.text file.fileName)

/-- `serialize` of the class of the file. -/
def serializeJson (fileId : Int) (file : SharingFile) : JsonObject :=
  let object :=
    JsonObject.set [] "SharingFile" (.object (file.serializeBase fileId))
  match file.body with
  | .generalFile storageFileId =>
      object.set "storage_file_id" (.int storageFileId)
  | .storageFile nodeId useCounting =>
      let object := object.set "node_id" (.int nodeId)
      object.set "use_counting" (.int useCounting)
  | .directory fileList => serializeArray object "file_list" fileList

/-- What the classes derived from `SharingFile` read besides its object. -/
def deserializeBody (object : JsonObject) :
    FileType → Except Fault FileBody
  | .directory => do
      let fileList ← deserializeArray object "file_list"
      pure (.directory fileList)
  | .generalFile => do
      let storageFileId ← readMember (object.getInt "storage_file_id")
      pure (.generalFile storageFileId)
  | .storageFile => do
      let nodeId ← readMember (object.getInt "node_id")
      let useCounting ← readMember (object.getInt "use_counting")
      pure (.storageFile nodeId useCounting)

/-- `deserialize` of the object that `get` builds for the type in the base
object.  For another number there is no object, and the call through the null
pointer is undefined. -/
def deserializeJson (object : JsonObject) :
    Except Fault (Int × SharingFile) := do
  let base ← readMember (object.getObject "SharingFile")
  let inType ← readMember (base.getInt "file_type")
  match FileType.ofInt inType with
  | none => .error .undefined
  | some fileType =>
      let fileId ← readMember (base.getInt "file_id")
      let fileName ← readMember (base.getText "file_name")
      let body ← deserializeBody object fileType
      pure (fileId, { fileName := fileName, body := body })

theorem deserializeBody_serializeJson (fileId : Int) (file : SharingFile) :
    deserializeBody (file.serializeJson fileId) file.fileType =
      .ok file.body := by
  obtain ⟨fileName, body⟩ := file
  cases body with
  | directory fileList =>
      simp [serializeJson, deserializeBody, fileType, serializeArray]
  | generalFile storageFileId =>
      simp [serializeJson, deserializeBody, fileType]
  | storageFile nodeId useCounting =>
      simp [serializeJson, deserializeBody, fileType]

theorem getObject_serializeJson (fileId : Int) (file : SharingFile) :
    (file.serializeJson fileId).getObject "SharingFile" =
      some (file.serializeBase fileId) := by
  unfold serializeJson
  split <;> simp [serializeArray]

theorem deserializeJson_serializeJson (fileId : Int) (file : SharingFile) :
    deserializeJson (file.serializeJson fileId) = .ok (fileId, file) := by
  simp only [deserializeJson, getObject_serializeJson, readMember_some,
    ok_bind]
  simp [serializeBase, deserializeBody_serializeJson]

end SharingFile

namespace SharingFileManager

def serializeJson (manager : SharingFileManager) : JsonObject :=
  let object := JsonObject.set [] "m_next_id" (.int manager.nextId)
  serializeMapCustomer object "m_file_list" manager.fileList
    fun pair => pair.2.serializeJson pair.1

/-- `deserialize` of a fresh manager. -/
def deserializeJson (object : JsonObject) :
    Except Fault SharingFileManager := do
  let nextId ← readMember (object.getInt "m_next_id")
  let fileList ← deserializeMapCustomer object "m_file_list"
    SharingFile.deserializeJson
  pure { fileList := fileList, nextId := nextId }

/-- A document of the files holds what `serialize` lists. -/
theorem deserializeJson_serializeJson (manager : SharingFileManager) :
    deserializeJson manager.serializeJson =
      .ok (deserialize manager.serialize) := by
  have readsBack (pair : Int × SharingFile) :
      SharingFile.deserializeJson (pair.2.serializeJson pair.1) =
        .ok (id pair) :=
    SharingFile.deserializeJson_serializeJson pair.1 pair.2
  rw [deserializeJson, serializeJson,
    deserializeMapCustomer_serializeMapCustomer _ _ _ readsBack]
  simp [deserialize, serialize]

end SharingFileManager

/-! ## Nodes -/

namespace StorageNode

/-- `StorageNode::serialize`; it sets the id of the node twice. -/
def serializeJson (node : StorageNode) : JsonObject :=
  let object := JsonObject.set [] "node_id" (.int node.nodeId)
  let object := object.set "ip" (.text node.ip)
  let object := object.set "port" (.int node.port)
  let object := object.set "node_id" (.int node.nodeId)
  object.set "use_counting" (.int node.useCounting)

def deserializeJson (object : JsonObject) : Except Fault StorageNode := do
  let _ ← readMember (object.getInt "node_id")
  let ip ← readMember (object.getText "ip")
  let port ← readMember (object.getInt "port")
  let nodeId ← readMember (object.getInt "node_id")
  let useCounting ← readMember (object.getInt "use_counting")
  pure
    { nodeId := nodeId, ip := ip, port := port, serviceId := 0
      useCounting := useCounting }

/-- A node without its service. -/
def withoutService (node : StorageNode) : StorageNode :=
  { node with serviceId := 0 }

theorem deserializeJson_serializeJson (node : StorageNode) :
    deserializeJson node.serializeJson = .ok node.withoutService := by
  simp [deserializeJson, serializeJson, withoutService]

end StorageNode

namespace StorageNodeManager

def serializeJson (manager : StorageNodeManager) : JsonObject :=
  let object := JsonObject.set [] "m_next_id" (.int manager.nextId)
  serializeMapCustomer object "m_node_list" manager.nodeList
    fun pair => pair.2.serializeJson

/-- `deserialize` of a fresh manager, before the services are registered. -/
def deserializeJson (object : JsonObject) :
    Except Fault StorageNodeManager := do
  let nextId ← readMember (object.getInt "m_next_id")
  let nodeList ← deserializeMapCustomer object "m_node_list" fun item => do
    let node ← StorageNode.deserializeJson item
    pure (node.nodeId, node)
  pure { nodeList := nodeList, nextId := nextId }

/-- A document of the nodes holds what `serialize` lists. -/
theorem deserializeJson_serializeJson (manager : StorageNodeManager) :
    deserializeJson manager.serializeJson =
      .ok (deserialize manager.serialize) := by
  have readsBack (pair : Int × StorageNode) :
      (do
        let node ← StorageNode.deserializeJson pair.2.serializeJson
        pure (node.nodeId, node)) =
          (Except.ok (pair.2.nodeId, pair.2.withoutService) :
            Except Fault _) := by
    rw [StorageNode.deserializeJson_serializeJson, ok_bind]
    rfl
  rw [deserializeJson, serializeJson,
    deserializeMapCustomer_serializeMapCustomer _ _ _ readsBack]
  simp [deserialize, serialize]
  rfl

end StorageNodeManager

/-! ## The keys of the nodes -/

/-- What selects one of two values ends, over a list, with one of its
values. -/
theorem foldl_mem_of_selects {α : Type} {select : α → α → α}
    (selects : ∀ left right, select left right = left ∨
      select left right = right)
    (first : α) (rest : List α) : rest.foldl select first ∈ first :: rest := by
  induction rest generalizing first with
  | nil => exact List.mem_singleton_self first
  | cons second rest inductionHypothesis =>
      have member := inductionHypothesis (select first second)
      rw [List.foldl_cons]
      rcases selects first second with keeps | takes
      · rw [keeps] at member ⊢
        rcases List.mem_cons.mp member with same | later
        · rw [same]
          exact List.mem_cons_self
        · exact List.mem_cons_of_mem _ (List.mem_cons_of_mem _ later)
      · rw [takes] at member ⊢
        exact List.mem_cons_of_mem _ member

namespace StorageNodeManager

/-- Nodes are stored under their ids, and no id is still to be handed out. -/
def Keyed (nodes : StorageNodeManager) : Prop :=
  ∀ nodeId node, nodes.findNode nodeId = some node →
    node.nodeId = nodeId ∧ nodeId < nodes.nextId

theorem keyed_init : Keyed init := by
  intro nodeId node found
  simp [init, findNode] at found

theorem findNode_of_getFitNode {nodes : StorageNodeManager} {nodeId : Int}
    {node : StorageNode} (fit : nodes.getFitNode = .ok (nodeId, node)) :
    nodes.findNode nodeId = some node := by
  unfold getFitNode at fit
  split at fit
  · rename_i entry free
    cases fit
    exact (Table.findIf_eq_some free).1
  · split at fit
    · cases fit
    · rename_i first rest listed
      have selects (lowLoad entry : Int × StorageNode) :
          (if entry.2.useCounting < lowLoad.2.useCounting then entry
            else lowLoad) = lowLoad ∨
          (if entry.2.useCounting < lowLoad.2.useCounting then entry
            else lowLoad) = entry :=
        (ite_eq_or_eq _ _ _).symm
      have member := foldl_mem_of_selects selects first rest
      rw [Except.ok.inj fit, ← listed] at member
      exact Std.ExtTreeMap.mem_toList_iff_getElem?_eq_some.mp member

variable {nodes : StorageNodeManager}

theorem Keyed.registerNode (keyed : nodes.Keyed)
    (ip : Text) (port serviceId : Int) :
    (nodes.registerNode ip port serviceId).Keyed := by
  intro nodeId node found
  have older : nodes.nextId < nodes.nextId + 1 := by omega
  rcases Table.lookup_of_lookup_insertIfNew found with old | ⟨rfl, rfl⟩
  · have known := keyed nodeId node old
    exact ⟨known.1, Int.lt_trans known.2 older⟩
  · exact ⟨rfl, older⟩

/-- Replacing a node by one of the same id. -/
theorem Keyed.insert (keyed : nodes.Keyed) {nodeId : Int}
    {node changed : StorageNode} (found : nodes.findNode nodeId = some node)
    (same : changed.nodeId = node.nodeId) :
    Keyed { nodes with nodeList := nodes.nodeList.insert nodeId changed } := by
  intro otherId other foundOther
  simp only [findNode, Table.lookup_insert] at foundOther
  split at foundOther
  · rename_i own
    cases foundOther
    subst own
    exact ⟨same.trans (keyed _ _ found).1, (keyed _ _ found).2⟩
  · exact keyed otherId other foundOther

theorem findNode_of_getNode {nodeId : Int} {node : StorageNode}
    (found : nodes.getNode nodeId = .ok node) :
    nodes.findNode nodeId = some node := by
  unfold getNode at found
  split at found
  · cases found
    assumption
  · cases found

theorem Keyed.setService (keyed : nodes.Keyed) (nodeId serviceId : Int) :
    ((StorageNodeManager.setService nodeId serviceId).after nodes).Keyed := by
  unfold Action.after StorageNodeManager.setService
  cases found : nodes.getNode nodeId with
  | error fault => exact keyed
  | ok node => exact keyed.insert (findNode_of_getNode found) rfl

theorem nextId_setService (nodeId serviceId : Int)
    (nodes : StorageNodeManager) :
    ((StorageNodeManager.setService nodeId serviceId).after nodes).nextId =
      nodes.nextId := by
  unfold Action.after StorageNodeManager.setService
  split <;> rfl

/-- The nodes as the data file holds them. -/
theorem deserialize_serialize (keyed : nodes.Keyed) :
    deserialize nodes.serialize =
      { nodes with
        nodeList := nodes.nodeList.map fun _ node => node.withoutService } :=
    by
  have entries : (nodes.nodeList.toList.map fun entry =>
      (entry.2.nodeId, entry.2.withoutService)) =
        nodes.nodeList.toList.map fun entry =>
          (entry.1, entry.2.withoutService) := by
    apply List.map_congr_left
    rintro ⟨nodeId, node⟩ listed
    rw [Std.ExtTreeMap.mem_toList_iff_getElem?_eq_some] at listed
    rw [(keyed nodeId node listed).1]
  have table := Table.insertAll_map_toList nodes.nodeList
    fun _ node => node.withoutService
  rw [← entries] at table
  rw [← table]
  rfl

theorem Keyed.deserialize_serialize (keyed : nodes.Keyed) :
    (deserialize nodes.serialize).Keyed := by
  rw [StorageNodeManager.deserialize_serialize keyed]
  intro nodeId node found
  simp only [findNode, Std.ExtTreeMap.getElem?_map,
    Option.map_eq_some_iff] at found
  obtain ⟨written, stored, rfl⟩ := found
  exact keyed nodeId written stored

end StorageNodeManager

/-! ## Steps of the server -/

/-- No next id goes back, and the nodes stay under their ids. -/
structure IdsGrow (before after : Server) : Prop where
  groups : before.groups.nextId ≤ after.groups.nextId
  files : before.files.nextId ≤ after.files.nextId
  nodes : before.nodes.nextId ≤ after.nodes.nextId
  keyed : before.nodes.Keyed → after.nodes.Keyed

namespace IdsGrow

variable {before after : Server} {source : Source}

theorem refl (server : Server) : IdsGrow server server :=
  ⟨Int.le_refl _, Int.le_refl _, Int.le_refl _, id⟩

theorem trans {later : Server} (first : IdsGrow before after)
    (second : IdsGrow after later) : IdsGrow before later :=
  ⟨Int.le_trans first.groups second.groups,
    Int.le_trans first.files second.files,
    Int.le_trans first.nodes second.nodes,
    fun keyed => second.keyed (first.keyed keyed)⟩

theorem of_same (groups : after.groups = before.groups)
    (files : after.files = before.files)
    (nodes : after.nodes = before.nodes) : IdsGrow before after := by
  refine ⟨?_, ?_, ?_, ?_⟩
  · exact Int.le_of_eq (congrArg SharingGroupManager.nextId groups).symm
  · exact Int.le_of_eq (congrArg SharingFileManager.nextId files).symm
  · exact Int.le_of_eq (congrArg StorageNodeManager.nextId nodes).symm
  · rw [nodes]
    exact id

/-- A change of the files, of one label. -/
theorem of_files {owner : Int → Int} {label : Int}
    (groups : after.groups = before.groups)
    (nodes : after.nodes = before.nodes)
    (inside : Inside owner label before.files after.files) :
    IdsGrow before after := by
  refine ⟨?_, inside.grows, ?_, ?_⟩
  · exact Int.le_of_eq (congrArg SharingGroupManager.nextId groups).symm
  · exact Int.le_of_eq (congrArg StorageNodeManager.nextId nodes).symm
  · rw [nodes]
    exact id

theorem registerGroup_nodes (server : Server) (userId : Int)
    (groupName : Text) :
    Action.Ensures (Server.registerGroup userId groupName) server
      (fun _ later => server.nodes.nextId ≤ later.nodes.nextId ∧
        (server.nodes.Keyed → later.nodes.Keyed))
      (fun _ later => server.nodes.nextId ≤ later.nodes.nextId ∧
        (server.nodes.Keyed → later.nodes.Keyed)) := by
  simp only [Server.registerGroup, Server.onFiles, Server.onGroups,
    Server.onNodes, Action.ensures_bind, Action.ensures_read,
    Action.ensures_throwIf, Action.ensures_zoom, Action.ensures_check,
    Action.ensures_modify, Action.ensures_pure]
  refine ⟨fun _ => ⟨Int.le_refl _, id⟩, fun _ => ?_⟩
  refine Action.ensures_of_forall ?_ fun _ _ => ⟨Int.le_refl _, id⟩
  intro rootDirId files
  refine ⟨?_, fun _ _ => ⟨Int.le_refl _, id⟩⟩
  rintro ⟨nodeKey, fitNode⟩ fit
  have counted (keyed : server.nodes.Keyed) :
      StorageNodeManager.Keyed { server.nodes with
        nodeList := server.nodes.nodeList.insert nodeKey
          { fitNode with useCounting := fitNode.useCounting + 1 } } :=
    keyed.insert (StorageNodeManager.findNode_of_getFitNode fit) rfl
  exact ⟨fun _ => ⟨Int.le_refl _, counted⟩,
    fun _ => ⟨Int.le_refl _, counted⟩⟩

theorem registerGroup {owner : Int → Int}
    (forest : Forest owner before.groups before.files)
    (userId : Int) (groupName : Text) :
    IdsGrow before
      ((Server.registerGroup userId groupName).after before) := by
  have nodes := Action.ensures_after.mp
    (registerGroup_nodes before userId groupName)
  have registered := registerGroup_cases
    (forest.relabel before.groups.nextId)
    (fun _ above => relabel_of_le above) userId groupName
  generalize (Server.registerGroup userId groupName).after before = later
    at nodes registered
  cases registered with
  | refused => exact refl before
  | rootOnly inside => exact of_files rfl rfl inside
  | added inside key root below =>
      have older : before.groups.nextId < before.groups.nextId + 1 := by
        omega
      exact ⟨Int.le_of_lt older, inside.grows, nodes.1, nodes.2⟩

/-- The changes that requests and answers ask for. -/
theorem of_change {owner : Int → Int}
    (forest : Forest owner before.groups before.files)
    (change : Change before source after) (asked : source ≠ .server) :
    IdsGrow before after := by
  have start (label : Int) :
      Inside (relabel owner before.files.nextId label) label
        before.files before.files :=
    .refl (forest.relabel label).owned
  have fresh (label fileId : Int) (above : before.files.nextId ≤ fileId) :
      relabel owner before.files.nextId label fileId = label :=
    relabel_of_le above
  cases change with
  | same => exact refl before
  | users changed => exact of_same rfl rfl rfl
  | nodes changed => exact absurd rfl asked
  | serialize => exact absurd rfl asked
  | registerGroup userId groupName =>
      exact registerGroup forest userId groupName
  | roles acts target place permitted =>
      exact ⟨Int.le_refl _, Int.le_refl _, Int.le_refl _, id⟩
  | @createPath connId package groupId user group path content manages =>
      have root := ((forest.relabel groupId).roots _ _ manages.found).2
      refine of_files rfl rfl (Action.ensures_after.mp
        ((start groupId).createPathFrom_ensures (fresh _) root _))
  | @removePath connId package groupId user group path force content
      manages =>
      have root := ((forest.relabel groupId).roots _ _ manages.found).2
      refine of_files rfl rfl (Action.ensures_after.mp
        ((start groupId).removePath_ensures root _))
  | @putSession connId package user group request command content
      manages =>
      obtain ⟨files, sessions, changed, inside⟩ := putSession_inside
        (forest.relabel _) user request manages.found (fresh _)
      rw [changed]
      exact of_files rfl rfl inside
  | getSession filePath command content acts member general =>
      obtain ⟨sessions, changed⟩ := after_getSession before _ _ filePath
      rw [changed]
      exact of_same rfl rfl rfl
  | putFragment request command content login found own next =>
      exact of_same rfl rfl rfl
  | removeSession sessionId => exact of_same rfl rfl rfl
  | putNodeSession sessionId nodeSessionId found => exact of_same rfl rfl rfl
  | getNodeSession sessionId nodeSessionId found => exact of_same rfl rfl rfl

theorem of_changed {owner : Int → Int}
    (forest : Forest owner before.groups before.files)
    (changed : Changed before source after) (asked : source ≠ .server) :
    IdsGrow before after := by
  induction changed with
  | change change => exact of_change forest change asked
  | cleanUp changed sessionId grow =>
      exact ⟨grow.groups, grow.files, grow.nodes,
        grow.keyed⟩

theorem internal {owner : Int → Int} {server : Server}
    (forest : Forest owner server.groups server.files) (call : ServerCall) :
    IdsGrow server ((internal call).after server) := by
  have nodesOnly {nodes : StorageNodeManager}
      (grows : server.nodes.nextId ≤ nodes.nextId)
      (keyed : server.nodes.Keyed → nodes.Keyed) :
      IdsGrow server { server with nodes := nodes } :=
    ⟨Int.le_refl _, Int.le_refl _, grows, keyed⟩
  cases call with
  | registerRootUser userName password =>
      simp only [ResourceServer.internal, Action.after_bind_pure]
      exact of_same rfl rfl rfl
  | registerRootGroup userId groupName =>
      simp only [ResourceServer.internal, Action.after_bind_pure]
      exact registerGroup forest userId groupName
  | registerNode ip port serviceId =>
      have older : server.nodes.nextId < server.nodes.nextId + 1 := by omega
      exact nodesOnly (Int.le_of_lt older)
        fun keyed => keyed.registerNode ip port serviceId
  | setService nodeId serviceId =>
      refine nodesOnly ?_ fun keyed => keyed.setService nodeId serviceId
      exact Int.le_of_eq
        (StorageNodeManager.nextId_setService nodeId serviceId _).symm
  | kickOutUser connId => exact of_same rfl rfl rfl
  | serialize => exact of_same rfl rfl rfl

end IdsGrow

/-! ## Reachable states -/

/-- The running nodes and those of the data file are stored under their
ids. -/
structure KeyedServer (server : Server) : Prop where
  running : server.nodes.Keyed
  saved : ∀ file, server.dataFile = some file →
    (StorageNodeManager.deserialize file.nodes).Keyed

theorem keyedServer_init : KeyedServer Server.init :=
  ⟨StorageNodeManager.keyed_init, by simp [Server.init]⟩

theorem KeyedServer.restart {server : Server} (keyed : KeyedServer server)
    (rest : Int → UninitializedUser) : KeyedServer (server.restart rest) := by
  unfold Server.restart
  cases stored : server.dataFile with
  | none => exact keyedServer_init
  | some file =>
      have saved := keyed.saved file stored
      refine ⟨saved, ?_⟩
      intro other same
      cases same
      exact saved

section Reachable

variable {messageSize : Message → Nat} {worker later : ServerWorker}

theorem IdsGrow.step {event : Worker.Event Message ServerCall}
    {owner : Int → Int}
    (forest : Forest owner worker.app.groups worker.app.files)
    (stepped : Worker.step (program messageSize) worker event =
      some later) : IdsGrow worker.app later.app := by
  rcases step_asked stepped with ⟨call, rfl⟩ | ⟨source, asked, changed⟩
  · rw [← after_of_internal stepped]
    exact internal forest call
  · exact of_changed forest changed asked

theorem KeyedServer.step {event : ServerEvent}
    (keyed : KeyedServer worker.app) (sound : Sound worker.app)
    (stepped : (serverMachine messageSize).step worker event = some later) :
    KeyedServer later.app := by
  cases event with
  | restart rest =>
      cases stepped
      exact keyed.restart rest
  | worker event =>
      obtain ⟨owner, forest⟩ := sound.running
      refine ⟨(IdsGrow.step forest stepped).keyed keyed.running, ?_⟩
      intro file stored
      have effect := Effect.of_changed forest (step_changed stepped)
      rcases effect.dataFile with same | written
      · exact keyed.saved file (same ▸ stored)
      · rw [written] at stored
        cases stored
        exact keyed.running.deserialize_serialize

theorem keyedServer_of_reachable
    (reachable : (serverMachine messageSize).Reachable worker) :
    KeyedServer worker.app := by
  obtain ⟨events, reaches⟩ := reachable
  refine Machine.Reaches.induction
    (motive := fun _ worker => KeyedServer worker.app) keyedServer_init ?_
    reaches
  intro events worker event later reaches keyed stepped
  exact keyed.step (Sound.of_reachable ⟨events, reaches⟩) stepped

/-- What one process does, from a reachable state on. -/
theorem IdsGrow.run (reachable : (serverMachine messageSize).Reachable worker)
    {events : List (Worker.Event Message ServerCall)}
    (runs : (serverMachine messageSize).run worker
      (events.map ServerEvent.worker) = some later) :
    IdsGrow worker.app later.app := by
  induction events generalizing worker with
  | nil =>
      cases runs
      exact refl _
  | cons event events inductionHypothesis =>
      obtain ⟨next, stepped, rest⟩ := Option.bind_eq_some_iff.mp runs
      obtain ⟨owner, forest⟩ := (Sound.of_reachable reachable).running
      have first : IdsGrow worker.app next.app :=
        step forest stepped
      exact first.trans (inductionHypothesis (reachable.step stepped) rest)

end Reachable

/-! ## Reading the documents back -/

/-- The managers hold what the server holds, but for the services of nodes,
so that each path of a group leads where it leads in the server. -/
structure Restores (server : Server) (groups : SharingGroupManager)
    (files : SharingFileManager) (nodes : StorageNodeManager) : Prop where
  findGroup : ∀ groupId,
    groups.findGroup groupId = server.groups.findGroup groupId
  findFile : ∀ fileId, files.findFile fileId = server.files.findFile fileId
  findNode : ∀ nodeId, nodes.findNode nodeId =
    (server.nodes.findNode nodeId).map StorageNode.withoutService
  nextGroupId : groups.nextId = server.groups.nextId
  nextFileId : files.nextId = server.files.nextId
  nextNodeId : nodes.nextId = server.nodes.nextId
  paths : ∀ groupId group, groups.findGroup groupId = some group →
    ∀ path, group.getFileId files path = group.getFileId server.files path

/-- The ids that the server holds are not handed out by the managers. -/
structure Avoids (server : Server) (groups : SharingGroupManager)
    (files : SharingFileManager) (nodes : StorageNodeManager) : Prop where
  group : ∀ groupId group, server.groups.findGroup groupId = some group →
    groupId < groups.nextId
  file : ∀ fileId file, server.files.findFile fileId = some file →
    fileId < files.nextId
  node : ∀ nodeId node, server.nodes.findNode nodeId = some node →
    nodeId < nodes.nextId

/-- The documents that the managers of a reachable server write give, read
back into fresh managers, what the server holds.  The new managers hand out
no id that the process held before it wrote them. -/
theorem documents_restore {messageSize : Message → Nat}
    {worker : ServerWorker}
    (reachable : (serverMachine messageSize).Reachable worker) :
    ∃ groups files nodes,
      SharingGroupManager.deserializeJson worker.app.groups.serializeJson =
        .ok groups ∧
      SharingFileManager.deserializeJson worker.app.files.serializeJson =
        .ok files ∧
      StorageNodeManager.deserializeJson worker.app.nodes.serializeJson =
        .ok nodes ∧
      Restores worker.app groups files nodes ∧
      ∀ earlier (events : List (Worker.Event Message ServerCall)),
        (serverMachine messageSize).Reachable earlier →
        (serverMachine messageSize).run earlier
          (events.map ServerEvent.worker) = some worker →
        Avoids earlier.app groups files nodes := by
  obtain ⟨owner, forest⟩ := (Sound.of_reachable reachable).running
  have keyed := (keyedServer_of_reachable reachable).running
  refine ⟨_, _, _,
    SharingGroupManager.deserializeJson_serializeJson worker.app.groups,
    SharingFileManager.deserializeJson_serializeJson worker.app.files,
    StorageNodeManager.deserializeJson_serializeJson worker.app.nodes, ?_⟩
  rw [SharingGroupManager.deserialize_serialize fun groupId group found =>
      (forest.keyed groupId group found).1,
    SharingFileManager.deserialize_serialize,
    StorageNodeManager.deserialize_serialize keyed]
  constructor
  · refine ⟨fun _ => rfl, fun _ => rfl, ?_, rfl, rfl, rfl,
      fun _ _ _ _ => rfl⟩
    intro nodeId
    exact Std.ExtTreeMap.getElem?_map
  · intro earlier events earlierReachable runs
    obtain ⟨earlierOwner, earlierForest⟩ :=
      (Sound.of_reachable earlierReachable).running
    have earlierKeyed := (keyedServer_of_reachable earlierReachable).running
    have grow := IdsGrow.run earlierReachable runs
    refine ⟨?_, ?_, ?_⟩
    · intro groupId group found
      exact Int.lt_of_lt_of_le (earlierForest.keyed groupId group found).2
        grow.groups
    · intro fileId file found
      exact Int.lt_of_lt_of_le
        (earlierForest.owned.bounds fileId file found).2 grow.files
    · intro nodeId node found
      exact Int.lt_of_lt_of_le (earlierKeyed nodeId node found).2
        grow.nodes

/-- The documents of a server with a directory and two uploads. -/
theorem documents_restore_uploaded :
    ∃ groups files nodes,
      SharingGroupManager.deserializeJson
          uploadedWorker.app.groups.serializeJson = .ok groups ∧
      SharingFileManager.deserializeJson
          uploadedWorker.app.files.serializeJson = .ok files ∧
      StorageNodeManager.deserializeJson
          uploadedWorker.app.nodes.serializeJson = .ok nodes ∧
      Restores uploadedWorker.app groups files nodes ∧
      Avoids uploadedWorker.app groups files nodes := by
  have reachable : (serverMachine fun _ => 0).Reachable uploadedWorker :=
    ⟨sameNameEvents, (Option.some_get _).symm⟩
  obtain ⟨groups, files, nodes, groupsRead, filesRead, nodesRead, restores,
    avoids⟩ := documents_restore reachable
  exact ⟨groups, files, nodes, groupsRead, filesRead, nodesRead, restores,
    avoids uploadedWorker [] reachable rfl⟩

end ResourceServer
end Spaceless
