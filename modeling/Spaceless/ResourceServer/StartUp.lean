import Spaceless.Foundation.Service
import Spaceless.ResourceServer.Serialization

/-!
# The start of the resource server

`main` leaves the registration of storage nodes to the network and the worker,
which run once the scheduler is started, and registers the root group itself
before that.  A group needs a node, and the choice among none is undefined.
-/

namespace Spaceless
namespace ResourceServer

open Logic Foundation

namespace StorageNodeManager

/-- `find_node` by address. -/
def findNodeByAddress (manager : StorageNodeManager)
    (ip : Text) (port : Int) : Option StorageNode :=
  (manager.nodeList.findIf fun node => node.ip == ip && node.port == port).map
    Prod.snd

def HasNode (manager : StorageNodeManager) : Prop :=
  ∃ nodeId node, manager.findNode nodeId = some node

end StorageNodeManager

/-! ## The steps of main and of the queues -/

structure Configuration where
  /-- The addresses that the loop over `storage_nodes` reads. -/
  storageNodes : List (Text × Nat)
  rootUserName : Text
  rootUserPassword : Text
  rootGroupName : Text

/-- What `main` does after the data was read back. -/
inductive MainStep
  | registerNode (ip : Text) (port : Nat)
  | setRoot
  | start

/-- The network parts of `register_node` and `deserialize`. -/
inductive NetworkPart
  | registerNode (ip : Text) (port : Int)
  | deserialize (nodeId : Int) (ip : Text) (port : Int)

/-- The worker parts of `register_node` and `deserialize`. -/
inductive WorkerPart
  | registerNode (ip : Text) (port serviceId : Int)
  | deserialize (nodeId serviceId : Int)

/-- Requests of clients. -/
inductive ClientRequest
  | registerUser (userName password : Text)
  | loginUser (userId : Int) (password : Text)
  | registerGroup (groupName : Text)

/-- A message of the in queue. -/
inductive WorkerMessage
  | delegate (part : WorkerPart)
  | request (connId : Int) (request : ClientRequest)

/-- The process from `main` on. -/
structure StartUp where
  server : Server
  services : NetworkServiceManager
  /-- What `main` has still to do. -/
  program : List MainStep
  /-- `Scheduler::start` was called. -/
  started : Bool
  outQueue : List NetworkPart
  inQueue : List WorkerMessage
  /-- The messages that the worker processed. -/
  processed : List WorkerMessage
  /-- The end of the node list was read. -/
  undefined : Bool

namespace NetworkPart

def address : NetworkPart → Text × Int
  | .registerNode ip port => (ip, port)
  | .deserialize _ ip port => (ip, port)

/-- The part that is delegated to the worker once the service is known. -/
def delegated (serviceId : Int) : NetworkPart → WorkerPart
  | .registerNode ip port => .registerNode ip port serviceId
  | .deserialize nodeId _ _ => .deserialize nodeId serviceId

end NetworkPart

def WorkerPart.call : WorkerPart → Action Fault Server Unit
  | .registerNode ip port serviceId =>
      Server.onNodes (Action.modify fun nodes =>
        nodes.registerNode ip port serviceId)
  | .deserialize nodeId serviceId =>
      Server.onNodes (StorageNodeManager.setService nodeId serviceId)

def ClientRequest.call (connId : Int) :
    ClientRequest → Action Fault Server Unit
  | .registerUser userName password => do
      let _ ← Server.onUsers
        (UserManager.registerUser userName password false)
  | .loginUser userId password => do
      let _ ← Server.onUsers (UserManager.login userId password connId)
  | .registerGroup groupName => do
      let user ← Server.getLoginUser connId
      let _ ← Server.registerGroup user.userId groupName

def WorkerMessage.call : WorkerMessage → Action Fault Server Unit
  | .delegate part => part.call
  | .request connId asked => asked.call connId

namespace Configuration

def program (configuration : Configuration) : List MainStep :=
  (configuration.storageNodes.map fun address =>
    .registerNode address.1 address.2) ++ [.setRoot, .start]

def rootUser (configuration : Configuration) : Action Fault Server User := do
  let root ← Action.read fun server =>
    server.users.findUserByName configuration.rootUserName
  match root with
  | some root => pure root
  | none =>
      Server.onUsers (UserManager.registerUser configuration.rootUserName
        configuration.rootUserPassword true)

def setRoot (configuration : Configuration) :
    Action Fault Server Unit := do
  let root ← configuration.rootUser
  let group ← Action.read fun server =>
    server.groups.findGroupByName configuration.rootGroupName
  match group with
  | some _ => pure ()
  | none => do
      let _ ← Server.registerGroup root.userId configuration.rootGroupName

end Configuration

namespace StartUp

/-- The outcome of a call that reads the end of the node list. -/
def isUndefined : Except Fault Unit → Bool
  | .error .undefined => true
  | _ => false

def call (state : StartUp) (action : Action Fault Server Unit) : StartUp :=
  { state with
    server := action.after state.server
    undefined := isUndefined (action state.server).1 }

/-- A step of `main`.  What it throws is caught at its end, and ends it. -/
def mainStep (configuration : Configuration) (state : StartUp) :
    MainStep → StartUp
  | .registerNode ip port =>
      let port : Int := port % 65536
      match state.server.nodes.findNodeByAddress ip port with
      | some _ => state
      | none =>
          { state with
            outQueue := state.outQueue ++ [.registerNode ip port] }
  | .setRoot =>
      match (configuration.setRoot state.server).1 with
      | .ok _ => state.call configuration.setRoot
      | .error _ => { state.call configuration.setRoot with program := [] }
  | .start => { state with started := true }

/-- The network processes a message: `safe_call` drops one whose service
cannot be registered. -/
def networkStep (part : NetworkPart) (state : StartUp) : StartUp :=
  match state.services.registerService part.address.1 part.address.2 with
  | (.error _, services) => { state with services := services }
  | (.ok service, services) =>
      { state with
        services := services
        inQueue :=
          state.inQueue ++ [.delegate (part.delegated service.serviceId)] }

inductive Event
  | main
  | network
  | receive (connId : Int) (request : ClientRequest)
  | worker

/-- One step of one of the threads, or a request that comes in.  Nothing is
said of the process after undefined behaviour. -/
def step (configuration : Configuration) (state : StartUp) :
    Event → Option StartUp
  | .main =>
      match state.undefined, state.program with
      | false, next :: rest =>
          some (mainStep configuration { state with program := rest } next)
      | _, _ => none
  | .network =>
      match state.undefined, state.started, state.outQueue with
      | false, true, part :: rest =>
          some (networkStep part { state with outQueue := rest })
      | _, _, _ => none
  | .receive connId request =>
      match state.undefined, state.started with
      | false, true =>
          some { state with
            inQueue := state.inQueue ++ [.request connId request] }
      | _, _ => none
  | .worker =>
      match state.undefined, state.started, state.inQueue with
      | false, true, message :: rest =>
          some ({ state with
            inQueue := rest
            processed := state.processed ++ [message] }.call message.call)
      | _, _, _ => none

/-- The process after `deserialize`. -/
def init (configuration : Configuration) (saved : Option DataFile)
    (rest : Int → UninitializedUser) : StartUp :=
  let server := { Server.init with dataFile := saved }.restart rest
  { server := server
    services := NetworkServiceManager.init
    program := configuration.program
    started := false
    outQueue := server.nodes.nodeList.toList.map fun entry =>
      .deserialize entry.1 entry.2.ip entry.2.port
    inQueue := []
    processed := []
    undefined := false }

end StartUp

def startUpMachine (configuration : Configuration) (saved : Option DataFile)
    (rest : Int → UninitializedUser) : Machine StartUp StartUp.Event where
  start := StartUp.init configuration saved rest
  step := StartUp.step configuration

/-! ## Node lists with a node -/

namespace StorageNodeManager

variable {nodes : StorageNodeManager}

theorem getFitNode_of_hasNode (hasNode : nodes.HasNode) :
    ∃ fit, nodes.getFitNode = .ok fit := by
  unfold getFitNode
  cases nodes.nodeList.findIf fun node => node.useCounting == 0 with
  | some entry => exact ⟨entry, rfl⟩
  | none =>
      obtain ⟨nodeId, node, found⟩ := hasNode
      have listed : (nodeId, node) ∈ nodes.nodeList.toList :=
        Std.ExtTreeMap.mem_toList_iff_getElem?_eq_some.mpr found
      cases entries : nodes.nodeList.toList with
      | nil =>
          rw [entries] at listed
          cases listed
      | cons first rest => exact ⟨_, rfl⟩

theorem hasNode_of_getFitNode {fit : Int × StorageNode}
    (found : nodes.getFitNode = .ok fit) : nodes.HasNode :=
  ⟨fit.1, fit.2, findNode_of_getFitNode found⟩

/-- An entry of the list is replaced. -/
theorem hasNode_replace {nodeId : Int} {old : StorageNode}
    (found : nodes.findNode nodeId = some old) (node : StorageNode) :
    HasNode { nodes with nodeList := nodes.nodeList.insert nodeId node } ↔
      nodes.HasNode :=
  iff_of_true ⟨nodeId, node, Table.lookup_insert_self _ _ _⟩
    ⟨nodeId, old, found⟩

theorem hasNode_registerNode (nodes : StorageNodeManager)
    (ip : Text) (port serviceId : Int) :
    (nodes.registerNode ip port serviceId).HasNode := by
  unfold registerNode
  cases bound : nodes.nodeList[nodes.nextId]? with
  | some old =>
      rw [Table.insertIfNew_of_bound _ bound]
      exact ⟨nodes.nextId, old, bound⟩
  | none =>
      rw [Table.insertIfNew_of_fresh _ bound]
      exact ⟨nodes.nextId, _, Table.lookup_insert_self _ _ _⟩

theorem hasNode_deserialize (object : Object) :
    (deserialize object).HasNode ↔ object.nodeList ≠ [] := by
  unfold deserialize HasNode findNode
  cases object.nodeList with
  | nil => simp [Table.insertAll]
  | cons entry rest =>
      refine iff_of_true ⟨entry.1, entry.2, ?_⟩ (List.cons_ne_nil _ _)
      rw [Table.insertAll]
      apply Table.lookup_insertAll_of_bound
      rw [Table.insertIfNew_of_fresh _ (by simp)]
      exact Table.lookup_insert_self _ _ _

end StorageNodeManager

/-! ## Calls that choose a node -/

/-- `register_group` goes on to the choice of a node: the name is new, and the
root directory can be registered. -/
def Server.Chooses (server : Server) (groupName : Text) : Prop :=
  server.groups.findGroupByName groupName = none ∧
    server.files.findFile server.files.nextId = none

def Configuration.Chooses (configuration : Configuration)
    (server : Server) : Prop :=
  (server.users.findUserByName configuration.rootUserName ≠ none ∨
      server.users.userList[server.users.nextId]? = none) ∧
    server.Chooses configuration.rootGroupName

def WorkerMessage.Chooses (server : Server) : WorkerMessage → Prop
  | .request connId (.registerGroup groupName) =>
      server.users.findLoginUser connId ≠ none ∧ server.Chooses groupName
  | _ => False

/-- The message is the worker part of a registration. -/
def WorkerMessage.RegistersNode : WorkerMessage → Prop
  | .delegate (.registerNode _ _ _) => True
  | _ => False

/-- The call leaves a node list with a node exactly where one is added or was
there, and is undefined exactly where it chooses among none. -/
def Places (chooses adds : Prop) (server : Server)
    (action : Action Fault Server Unit) : Prop :=
  Action.Ensures action server
    (fun _ later =>
      (later.nodes.HasNode ↔ server.nodes.HasNode ∨ adds) ∧
        (chooses → server.nodes.HasNode))
    (fun fault later =>
      (later.nodes.HasNode ↔ server.nodes.HasNode ∨ adds) ∧
        (fault = .undefined ↔ chooses ∧ ¬server.nodes.HasNode))

section Calls

variable {server : Server} {chooses adds : Prop}

theorem Places.hasNode {action : Action Fault Server Unit}
    (places : Places chooses adds server action) :
    (action.after server).nodes.HasNode ↔ server.nodes.HasNode ∨ adds :=
  Action.ensures_after.mp
    (places.mono (fun _ _ => And.left) fun _ _ => And.left)

theorem Places.undefined {action : Action Fault Server Unit}
    (places : Places chooses adds server action) :
    StartUp.isUndefined (action server).1 = true ↔
      chooses ∧ ¬server.nodes.HasNode := by
  unfold Places at places
  cases outcome : action server with
  | mk result later =>
      cases result with
      | ok value =>
          obtain ⟨-, supplied⟩ := places.of_ok outcome
          simp only [StartUp.isUndefined, Bool.false_eq_true, false_iff,
            not_and_not_right]
          exact supplied
      | error fault =>
          rw [← (places.of_error outcome).2]
          cases fault <;> simp [StartUp.isUndefined]

/-- An entry is inserted exactly where its id is free. -/
theorem SharingFileManager.insertFile_free (files : SharingFileManager)
    (file : SharingFile) :
    Action.Ensures (insertFile file) files
      (fun _ _ => files.findFile files.nextId = none)
      (fun fault _ => files.findFile files.nextId ≠ none ∧
        fault ≠ .undefined) := by
  cases free : files.findFile files.nextId with
  | none => exact Action.ensures_of_ok (insertFile_eq free file) rfl
  | some old =>
      have failed : insertFile file files =
          (.error ErrorCode.errFileAlreadyExist.fault,
            { files with nextId := files.nextId + 1 }) := by
        simp only [insertFile, free]
      exact (Action.ensures_iff_of_error failed).mpr
        ⟨Option.some_ne_none old, by decide⟩

theorem registerGroup_call (userId : Int) (groupName : Text) :
    Places (server.Chooses groupName) False server (do
      let _ ← Server.registerGroup userId groupName) := by
  simp only [Places, Server.registerGroup, Server.onFiles, Server.onGroups,
    Server.onNodes, SharingFileManager.registerFile, Action.ensures_bind,
    Action.ensures_read, Action.ensures_throwIf, Action.ensures_zoom,
    Action.ensures_check, Action.ensures_modify, Action.ensures_pure,
    or_false]
  constructor
  · intro old
    exact ⟨trivial, iff_of_false (by decide) fun named => old named.1.1⟩
  intro new
  refine (SharingFileManager.insertFile_free _ _).mono ?_ ?_
  · intro rootDirId files free
    have choosing : server.Chooses groupName := ⟨not_not.mp new, free⟩
    constructor
    · rintro ⟨nodeKey, fitNode⟩ fit
      have hasNode := StorageNodeManager.hasNode_of_getFitNode fit
      have kept := StorageNodeManager.hasNode_replace
        (StorageNodeManager.findNode_of_getFitNode fit)
        { fitNode with useCounting := fitNode.useCounting + 1 }
      exact ⟨fun _ => ⟨kept, iff_of_false (by decide)
          fun lacking => lacking.2 hasNode⟩,
        fun _ => ⟨kept, fun _ => hasNode⟩⟩
    · intro fault unfit
      refine ⟨trivial, iff_of_true
        (StorageNodeManager.undefined_of_getFitNode unfit)
        ⟨choosing, fun hasNode => ?_⟩⟩
      obtain ⟨fit, found⟩ := StorageNodeManager.getFitNode_of_hasNode hasNode
      cases found.symm.trans unfit
  · rintro fault files ⟨taken, defined⟩
    exact ⟨trivial, iff_of_false defined fun named => taken named.1.2⟩

/-- A call on the users alone. -/
theorem onUsers_call {α : Type} {action : Action Fault UserManager α}
    (defined : Action.Ensures action server.users (fun _ _ => True)
      fun fault _ => fault ≠ .undefined) :
    Places False False server (do let _ ← Server.onUsers action) := by
  simp only [Places, Server.onUsers, Action.ensures_bind,
    Action.ensures_zoom, Action.ensures_pure, or_false]
  refine defined.mono ?_ ?_
  · intro value users _
    exact ⟨trivial, False.elim⟩
  · intro fault users defined
    exact ⟨trivial, iff_of_false defined fun none => none.1⟩

/-- A user is registered exactly where the name is new and the id free. -/
theorem UserManager.registerUser_free (users : UserManager)
    (userName password : Text) (isRootUser : Bool) :
    Action.Ensures (registerUser userName password isRootUser) users
      (fun _ _ => users.findUserByName userName = none ∧
        users.userList[users.nextId]? = none)
      (fun fault _ => fault ≠ .undefined ∧
        (users.findUserByName userName = none →
          users.userList[users.nextId]? ≠ none)) := by
  cases named : users.findUserByName userName with
  | some old =>
      have failed : registerUser userName password isRootUser users =
          (.error ErrorCode.errUserAlreadyExist.fault, users) := by
        simp only [registerUser, named]
      exact (Action.ensures_iff_of_error failed).mpr
        ⟨by decide, fun new => absurd new (Option.some_ne_none old)⟩
  | none =>
      cases free : users.userList[users.nextId]? with
      | some old =>
          have failed : registerUser userName password isRootUser users =
              (.error ErrorCode.errUserAlreadyExist.fault,
                { users with nextId := users.nextId + 1 }) := by
            simp only [registerUser, named, User.init, free]
          exact (Action.ensures_iff_of_error failed).mpr
            ⟨by decide, fun _ => Option.some_ne_none old⟩
      | none =>
          unfold Action.Ensures registerUser
          simp only [named, User.init, free, and_self]

theorem deserialize_call (nodeId serviceId : Int) :
    Places False False server
      (Server.onNodes (StorageNodeManager.setService nodeId serviceId)) := by
  simp only [Places, Server.onNodes, Action.ensures_zoom, or_false]
  cases found : server.nodes.getNode nodeId with
  | error fault =>
      have failed : StorageNodeManager.setService nodeId serviceId
          server.nodes = (.error fault, server.nodes) := by
        simp only [StorageNodeManager.setService, found]
      have defined : fault ≠ .undefined := by
        unfold StorageNodeManager.getNode at found
        split at found
        · cases found
        · rw [← Except.error.inj found]
          decide
      exact (Action.ensures_iff_of_error failed).mpr
        ⟨Iff.rfl, iff_of_false defined fun none => none.1⟩
  | ok node =>
      have replaced := StorageNodeManager.hasNode_replace
        (StorageNodeManager.findNode_of_getNode found)
        { node with serviceId := serviceId }
      unfold Action.Ensures StorageNodeManager.setService
      rw [found]
      exact ⟨replaced, False.elim⟩

theorem registerGroup_request (connId : Int) (groupName : Text) :
    Places (server.users.findLoginUser connId ≠ none ∧
        server.Chooses groupName) False server
      ((ClientRequest.registerGroup groupName).call connId) := by
  unfold Places ClientRequest.call
  rw [Action.ensures_bind, Server.getLoginUser, Action.ensures_check]
  constructor
  · intro user login
    have logged : server.users.findLoginUser connId ≠ none := by
      intro absent
      rw [UserManager.getLoginUser, absent] at login
      cases login
    simp only [logged, ne_eq, not_false_eq_true, true_and]
    exact registerGroup_call user.userId groupName
  · intro fault failed
    unfold UserManager.getLoginUser at failed
    cases login : server.users.findLoginUser connId with
    | some user =>
        rw [login] at failed
        cases failed
    | none =>
        rw [login] at failed
        cases failed
        exact ⟨(iff_of_eq (or_false _)).symm,
          iff_of_false (by decide) fun named => named.1.1 rfl⟩

/-- What the worker does with a message. -/
theorem worker_call (message : WorkerMessage) :
    Places (message.Chooses server) message.RegistersNode server
      message.call := by
  cases message with
  | delegate part =>
      cases part with
      | registerNode ip port serviceId =>
          refine Action.ensures_of_ok rfl ⟨?_, False.elim⟩
          exact iff_of_true (StorageNodeManager.hasNode_registerNode _ _ _ _)
            (Or.inr trivial)
      | deserialize nodeId serviceId =>
          exact deserialize_call nodeId serviceId
  | request connId asked =>
      cases asked with
      | registerUser userName password =>
          exact onUsers_call <| (UserManager.registerUser_free _ _ _ _).mono
            (fun _ _ _ => trivial) fun _ _ => And.left
      | loginUser userId password =>
          exact onUsers_call (Action.ensures_of_ok rfl trivial)
      | registerGroup groupName =>
          exact registerGroup_request connId groupName

/-- The root user is found, or registered where its id is free. -/
theorem rootUser_ensures (configuration : Configuration) :
    Action.Ensures configuration.rootUser server
      (fun _ later => (∃ users, later = { server with users := users }) ∧
        (server.users.findUserByName configuration.rootUserName ≠ none ∨
          server.users.userList[server.users.nextId]? = none))
      (fun fault later => (∃ users, later = { server with users := users }) ∧
        fault ≠ .undefined ∧
        ¬(server.users.findUserByName configuration.rootUserName ≠ none ∨
          server.users.userList[server.users.nextId]? = none)) := by
  unfold Configuration.rootUser
  rw [Action.ensures_bind, Action.ensures_read]
  cases named : server.users.findUserByName configuration.rootUserName with
  | some root =>
      exact Action.ensures_pure.mpr
        ⟨⟨server.users, rfl⟩, Or.inl (Option.some_ne_none root)⟩
  | none =>
      simp only [Server.onUsers, Action.ensures_zoom]
      refine (UserManager.registerUser_free _ _ _ _).mono ?_ ?_
      · rintro root users ⟨-, free⟩
        exact ⟨⟨users, rfl⟩, Or.inr free⟩
      · rintro fault users ⟨defined, taken⟩
        refine ⟨⟨users, rfl⟩, defined, ?_⟩
        rintro (found | free)
        · exact found rfl
        · exact taken named free

theorem setRoot_call (configuration : Configuration) :
    Places (configuration.Chooses server) False server
      configuration.setRoot := by
  unfold Places Configuration.setRoot
  rw [Action.ensures_bind]
  refine (rootUser_ensures configuration).mono ?_ ?_
  · rintro root _ ⟨⟨users, rfl⟩, available⟩
    rw [Action.ensures_bind, Action.ensures_read]
    have chooses : configuration.Chooses server ↔
        server.Chooses configuration.rootGroupName := and_iff_right available
    cases old : server.groups.findGroupByName
        configuration.rootGroupName with
    | some group =>
        refine Action.ensures_pure.mpr ⟨(iff_of_eq (or_false _)).symm, ?_⟩
        intro choosing
        have new := (chooses.mp choosing).1
        rw [old] at new
        cases new
    | none =>
        have placed := @registerGroup_call { server with users := users }
          root.userId configuration.rootGroupName
        rw [chooses]
        exact placed
  · rintro fault _ ⟨⟨users, rfl⟩, defined, unavailable⟩
    exact ⟨(iff_of_eq (or_false _)).symm,
      iff_of_false defined fun choosing => unavailable choosing.1.1⟩

end Calls

/-! ## Runs -/

namespace StartUp

variable {configuration : Configuration} {saved : Option DataFile}
  {rest : Int → UninitializedUser} {state next : StartUp}

/-- The next step comes to the choice of a node. -/
def Chooses (configuration : Configuration) (state : StartUp) :
    Event → Prop
  | .main =>
      state.program.head? = some .setRoot ∧
        configuration.Chooses state.server
  | .worker =>
      ∃ message, state.inQueue.head? = some message ∧
        message.Chooses state.server
  | _ => False

/-- The data file holds a node. -/
def Saves (saved : Option DataFile) : Prop :=
  ∃ file, saved = some file ∧ file.nodes.nodeList ≠ []

/-- The worker part of a registration has run. -/
def Registered (state : StartUp) : Prop :=
  ∃ message ∈ state.processed, message.RegistersNode

/-- A node is chosen only after one was read back or registered. -/
def Supplied (configuration : Configuration) (saved : Option DataFile)
    (state : StartUp) (event : Event) : Prop :=
  state.Chooses configuration event → Saves saved ∨ state.Registered

/-- The node list has a node exactly where the history tells so. -/
def Tracked (saved : Option DataFile) (state : StartUp) : Prop :=
  state.server.nodes.HasNode ↔ Saves saved ∨ state.Registered

theorem tracked_init : Tracked saved (init configuration saved rest) := by
  have registered : ¬(init configuration saved rest).Registered := by
    rintro ⟨message, processed, -⟩
    cases processed
  unfold Tracked
  rw [or_iff_left registered]
  unfold init Server.restart Saves
  cases saved with
  | none =>
      refine iff_of_false ?_ ?_
      · rintro ⟨nodeId, node, found⟩
        simp [Server.init, StorageNodeManager.init,
          StorageNodeManager.findNode] at found
      · rintro ⟨file, none, -⟩
        cases none
  | some file =>
      simp only [Option.some.injEq, exists_eq_left']
      exact StorageNodeManager.hasNode_deserialize file.nodes

/-- The step makes no call of the server. -/
structure Idle (configuration : Configuration) (state : StartUp)
    (event : Event) (next : StartUp) : Prop where
  chooses : ¬state.Chooses configuration event
  undefined : next.undefined = false
  server : next.server = state.server
  processed : next.processed = state.processed

/-- The step makes a call, which chooses where the step does. -/
structure Calls (configuration : Configuration) (state : StartUp)
    (event : Event) (next : StartUp) (action : Action Fault Server Unit)
    (adds : Prop) : Prop where
  places : Places (state.Chooses configuration event) adds state.server action
  undefined : next.undefined = isUndefined (action state.server).1
  server : next.server = action.after state.server
  registered : next.Registered ↔ state.Registered ∨ adds

theorem Calls.of_call {event : Event} {action : Action Fault Server Unit}
    {adds : Prop}
    (places :
      Places (state.Chooses configuration event) adds state.server action)
    (server : next.server = state.server)
    (registered : next.Registered ↔ state.Registered ∨ adds) :
    Calls configuration state event (next.call action) action adds := by
  refine ⟨places, ?_, ?_, registered⟩
  · rw [← server]
    rfl
  · rw [← server]
    rfl

theorem registered_congr (same : next.processed = state.processed) :
    next.Registered ↔ state.Registered := by
  unfold Registered
  rw [same]

theorem networkStep_kept (part : NetworkPart) (state : StartUp) :
    (networkStep part state).server = state.server ∧
      (networkStep part state).processed = state.processed ∧
      (networkStep part state).undefined = state.undefined := by
  unfold networkStep
  split <;> exact ⟨rfl, rfl, rfl⟩

theorem mainStep_registerNode (ip : Text) (port : Nat) (state : StartUp) :
    ∃ outQueue, mainStep configuration state (.registerNode ip port) =
      { state with outQueue := outQueue } := by
  unfold mainStep
  dsimp only
  split
  · exact ⟨state.outQueue, rfl⟩
  · exact ⟨_, rfl⟩

theorem mainStep_setRoot (state : StartUp) :
    ∃ program, mainStep configuration state .setRoot =
      { state with program := program }.call configuration.setRoot := by
  unfold mainStep
  dsimp only
  split
  · exact ⟨state.program, rfl⟩
  · exact ⟨[], rfl⟩

theorem mainStep_cases {task : MainStep} {tasks : List MainStep}
    (defined : state.undefined = false)
    (program : state.program = task :: tasks)
    (ran : mainStep configuration { state with program := tasks } task =
      next) :
    Idle configuration state .main next ∨
      Calls configuration state .main next configuration.setRoot False := by
  have chooses : state.Chooses configuration .main ↔
      task = .setRoot ∧ configuration.Chooses state.server := by
    unfold Chooses
    rw [program, List.head?_cons, Option.some.injEq]
  cases task with
  | registerNode ip port =>
      left
      obtain ⟨outQueue, same⟩ := mainStep_registerNode ip port
        { state with program := tasks }
      rw [← ran, same]
      exact ⟨fun root => MainStep.noConfusion (chooses.mp root).1,
        defined, rfl, rfl⟩
  | start =>
      left
      rw [← ran]
      exact ⟨fun root => MainStep.noConfusion (chooses.mp root).1,
        defined, rfl, rfl⟩
  | setRoot =>
      right
      obtain ⟨remaining, same⟩ := mainStep_setRoot
        { state with program := tasks }
      rw [← ran, same]
      refine Calls.of_call ?_ rfl (iff_of_eq (or_false _)).symm
      rw [chooses, and_iff_right rfl]
      exact setRoot_call configuration

theorem workerStep_calls {message : WorkerMessage}
    {messages : List WorkerMessage}
    (inQueue : state.inQueue = message :: messages) :
    Calls configuration state .worker
      ({ state with
        inQueue := messages
        processed := state.processed ++ [message] }.call message.call)
      message.call message.RegistersNode := by
  have chooses : state.Chooses configuration .worker ↔
      message.Chooses state.server := by
    unfold Chooses
    simp only [inQueue, List.head?_cons, Option.some.injEq,
      exists_eq_left']
  refine Calls.of_call ?_ rfl ?_
  · rw [chooses]
    exact worker_call message
  · unfold Registered
    simp only [List.mem_append, List.mem_singleton, or_and_right,
      exists_or, exists_eq_left]

theorem step_cases {event : Event}
    (stepped : step configuration state event = some next) :
    Idle configuration state event next ∨
      ∃ action adds, Calls configuration state event next action adds := by
  cases event with
  | main =>
      dsimp only [step] at stepped
      split at stepped
      · rename_i task tasks defined program
        exact (mainStep_cases defined program
          (Option.some.inj stepped)).imp_right fun calls => ⟨_, _, calls⟩
      · cases stepped
  | network =>
      dsimp only [step] at stepped
      split at stepped
      · rename_i part parts defined started outQueue
        rw [← Option.some.inj stepped]
        obtain ⟨server, processed, undefined⟩ :=
          networkStep_kept part { state with outQueue := parts }
        exact Or.inl ⟨id, undefined.trans defined, server, processed⟩
      · cases stepped
  | receive connId request =>
      dsimp only [step] at stepped
      split at stepped
      · rename_i defined started
        rw [← Option.some.inj stepped]
        exact Or.inl ⟨id, defined, rfl, rfl⟩
      · cases stepped
  | worker =>
      dsimp only [step] at stepped
      split at stepped
      · rename_i message messages defined started inQueue
        rw [← Option.some.inj stepped]
        exact Or.inr ⟨_, _, workerStep_calls inQueue⟩
      · cases stepped

theorem tracked_step {event : Event} (tracked : Tracked saved state)
    (stepped : step configuration state event = some next) :
    Tracked saved next := by
  unfold Tracked at tracked ⊢
  rcases step_cases stepped with idle | ⟨action, adds, calls⟩
  · rw [idle.server, registered_congr idle.processed]
    exact tracked
  · rw [calls.server, calls.places.hasNode, calls.registered, tracked,
      or_assoc]

/-- The steps at which the choice of a node is defined. -/
theorem defined_step_iff {event : Event} (tracked : Tracked saved state)
    (stepped : step configuration state event = some next) :
    next.undefined = false ↔ Supplied configuration saved state event := by
  unfold Supplied
  rcases step_cases stepped with idle | ⟨action, adds, calls⟩
  · exact iff_of_true idle.undefined fun chooses =>
      absurd chooses idle.chooses
  · rw [← Bool.not_eq_true, calls.undefined, calls.places.undefined,
      not_and_not_right]
    exact imp_congr_right fun _ => tracked

/-- The node list is only ever searched for a fit node while it has one,
exactly when every group is registered after a node was read back, or after
the worker ran its part of a registration. -/
theorem throughout_defined_iff {events : List Event} {last : StartUp}
    (run : (startUpMachine configuration saved rest).Reaches events last) :
    (startUpMachine configuration saved rest).Throughout
        (fun state => state.undefined = false) events ↔
      (startUpMachine configuration saved rest).StepsMeet
        (Supplied configuration saved) events := by
  have atStart : (startUpMachine configuration saved rest).start.undefined =
      false := rfl
  refine Machine.Reaches.throughout_iff_stepsMeet (Tracked saved)
    tracked_init ?_ atStart ?_ run
  · intro state event next tracked stepped
    exact tracked_step tracked stepped
  · intro state event next tracked _ stepped
    exact defined_step_iff tracked stepped

/-- `main` before the scheduler, at a start without saved data. -/
structure First (state : StartUp) : Prop where
  started : state.started = false
  preparing : state.undefined = true ∨ state.server = Server.init ∧
    ∃ addresses : List (Text × Nat),
      state.program = (addresses.map fun address =>
        .registerNode address.1 address.2) ++ [.setRoot, .start]

theorem first_init : First (init configuration none rest) where
  started := rfl
  preparing := Or.inr ⟨rfl, configuration.storageNodes, rfl⟩

theorem chooses_init (configuration : Configuration) :
    configuration.Chooses Server.init := by
  unfold Configuration.Chooses Server.Chooses
  simp [Server.init, UserManager.init, SharingGroupManager.init,
    SharingFileManager.init, SharingFileManager.findFile,
    SharingGroupManager.findGroupByName, Table.findIf]

theorem not_hasNode_init : ¬Server.init.nodes.HasNode := by
  simp [Server.init, StorageNodeManager.init, StorageNodeManager.HasNode,
    StorageNodeManager.findNode]

theorem First.step {event : Event} (first : First state)
    (stepped : step configuration state event = some next) :
    First next := by
  cases event with
  | main =>
      dsimp only [StartUp.step] at stepped
      split at stepped
      · rename_i task tasks defined program
        obtain ⟨fresh, addresses, written⟩ :=
          first.preparing.resolve_left (by simp [defined])
        rw [program] at written
        rw [← Option.some.inj stepped]
        cases addresses with
        | nil =>
            obtain ⟨rfl, rfl⟩ := List.cons.inj written
            obtain ⟨remaining, same⟩ := mainStep_setRoot
              { state with program := [.start] }
            rw [same]
            refine ⟨first.started, Or.inl ?_⟩
            have call : Places (configuration.Chooses state.server) False
                state.server configuration.setRoot :=
              setRoot_call configuration
            exact call.undefined.mpr
              ⟨fresh ▸ chooses_init configuration,
                fresh ▸ not_hasNode_init⟩
        | cons address others =>
            obtain ⟨rfl, rfl⟩ := List.cons.inj written
            obtain ⟨outQueue, same⟩ := mainStep_registerNode address.1
              address.2 { state with program := _ }
            rw [same]
            exact ⟨first.started, Or.inr ⟨fresh, others, rfl⟩⟩
      · cases stepped
  | network | receive connId request | worker =>
      simp [StartUp.step, first.started] at stepped

/-- At a start without saved data the scheduler is not reached: whatever the
configuration, `main` runs into the undefined choice first. -/
theorem not_started_of_firstStart {events : List Event} {last : StartUp}
    (run : (startUpMachine configuration none rest).Reaches events last) :
    last.started = false := by
  have first : First last := by
    refine Machine.Reachable.invariant first_init ?_ ⟨events, run⟩
    intro state event next first stepped
    exact first.step stepped
  exact first.started

end StartUp

/-! ## A first and a second start -/

namespace StartUp

/-- One storage node and the root. -/
def oneNode : Configuration where
  storageNodes := [(['n'], 1)]
  rootUserName := ['r']
  rootUserPassword := ['p']
  rootGroupName := ['g']

/-- A data file with the node alone. -/
def nodeFile : DataFile where
  users := { nextId := 1, userList := [] }
  groups := { nextId := 1, groupList := [] }
  files := { nextId := 1, fileList := [] }
  nodes :=
    { nextId := 2
      nodeList := [(1,
        { nodeId := 1, ip := ['n'], port := 1
          serviceId := 0, useCounting := 0 })] }

/-- Nothing of a user was left indeterminate in these runs. -/
def noRest : Int → UninitializedUser := fun _ =>
  { connId := 0, lastHearbeat := 0 }

theorem throughout_defined_nodeFile :
    ∃ last,
      (startUpMachine oneNode (some nodeFile) noRest).Reaches
          [.main, .main, .main] last ∧
        ((startUpMachine oneNode (some nodeFile) noRest).Throughout
            (fun state => state.undefined = false) [.main, .main, .main] ↔
          (startUpMachine oneNode (some nodeFile) noRest).StepsMeet
            (Supplied oneNode (some nodeFile)) [.main, .main, .main]) := by
  have runs : ((startUpMachine oneNode (some nodeFile) noRest).run
      (startUpMachine oneNode (some nodeFile) noRest).start
      [.main, .main, .main]).isSome = true := by decide +kernel
  obtain ⟨last, run⟩ := Option.isSome_iff_exists.mp runs
  exact ⟨last, run, throughout_defined_iff run⟩

theorem not_defined_firstStart :
    ¬(startUpMachine oneNode none noRest).Throughout
      (fun state => state.undefined = false) [.main, .main] := by
  intro defined
  have undefined : ((startUpMachine oneNode none noRest).run
      (startUpMachine oneNode none noRest).start [.main, .main]).map
        StartUp.undefined = some true := by decide +kernel
  obtain ⟨last, run, reached⟩ := Option.map_eq_some_iff.mp undefined
  have always : last.undefined = false :=
    defined [.main, .main] [] rfl last run
  rw [reached] at always
  cases always

end StartUp

end ResourceServer
end Spaceless
