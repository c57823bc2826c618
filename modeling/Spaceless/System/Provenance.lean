import Spaceless.ResourceServer.Routing
import Spaceless.StorageNode.Writing
import Spaceless.System.Download

/-!
# Where the stored bytes come from

A byte that a storage node did not have from the start was put there by an
upload: the fragment of a client who owns a put session, passed on by the
server, laid at its position by the node.  No order of deliveries, losses,
timeouts and restarts brings another byte on a node.
-/

namespace Spaceless
namespace System

open Logic Foundation ResourceServer
open Protocol (Message ReqPutFile)
open StorageNode (FileMode FileSession Storage Lays Puts)

/-- A fragment that a client sends, and the package that the server sends to
the service for it. -/
structure Upload where
  connId : Int
  package : Package Message
  request : ReqPutFile
  session : PutFileSession
  serviceId : Int
  forward : Package Message

/-- What the server asks the node to put. -/
def Upload.asked (upload : Upload) : ReqPutFile :=
  { upload.request with sessionId := upload.session.nodeSessionId }

namespace Network

variable (messageSize : Message → Nat)
  (permits : FileMode → Text → Bool) (storages : Int → Storage)

/-- A step of the run passed the fragment of the client on, whose session was
opened by a manager of the group. -/
def Forwarded (events : List Event) (upload : Upload) : Prop :=
  ∃ first now second before after user,
    events = first ++ .client now upload.connId upload.package :: second ∧
    (machine messageSize permits storages).Reaches first before ∧
    before.step messageSize permits
      (.client now upload.connId upload.package) = some after ∧
    Advances before.server.app upload.connId upload.package upload.request
      user upload.session ∧
    OpenedByManager messageSize
      (serverHistory messageSize permits storages first) upload.session ∧
    OnService before.server.app upload.session.groupId upload.serviceId ∧
    upload.forward.content = some (.reqPutFile upload.asked) ∧
    ∃ out ∈ pushedSince before.server after.server,
      out.serviceId = upload.serviceId ∧ out.package = upload.forward

/-- Later in the run the node of the service laid the byte for the package,
in the file of one of its sessions. -/
def Laid (events : List Event) (upload : Upload) (session : FileSession)
    (position : Nat) (byte : UInt8) : Prop :=
  ∃ first now connId index second before asked,
    events = first ++ .deliverRequest now connId index :: second ∧
    (machine messageSize permits storages).Reaches first before ∧
    Forwarded messageSize permits storages first upload ∧
    before.requests[index]? = some asked ∧
    asked.serviceId = upload.serviceId ∧
    asked.package = upload.forward ∧
    Puts (before.nodes upload.serviceId).app upload.forward upload.asked
      session ∧
    Lays upload.request position byte

variable {messageSize permits storages}

theorem Forwarded.snoc {events : List Event} {upload : Upload}
    (forwarded : Forwarded messageSize permits storages events upload)
    (event : Event) :
    Forwarded messageSize permits storages (events ++ [event]) upload := by
  obtain ⟨first, now, second, before, after, user, rfl, rest⟩ := forwarded
  exact ⟨first, now, second ++ [event], before, after, user, by simp, rest⟩

theorem Laid.snoc {events : List Event} {upload : Upload}
    {session : FileSession} {position : Nat} {byte : UInt8}
    (laid : Laid messageSize permits storages events upload session position
      byte) (event : Event) :
    Laid messageSize permits storages (events ++ [event]) upload session
      position byte := by
  obtain ⟨first, now, connId, index, second, before, asked, rfl, rest⟩ :=
    laid
  exact ⟨first, now, connId, index, second ++ [event], before, asked,
    by simp, rest⟩

/-- A forwarded fragment lies at the next index of its session. -/
theorem Forwarded.fragmentIndex_nonneg {events : List Event}
    {upload : Upload}
    (forwarded : Forwarded messageSize permits storages events upload) :
    0 ≤ upload.request.fragmentIndex := by
  obtain ⟨_, _, _, _, _, _, -, reaches, -, advances, -⟩ := forwarded
  rw [advances.next]
  exact nextFragment_nonneg_of_reachable
    ⟨_, reaches_serverHistory reaches⟩ advances.found

/-! ## A step of a node -/

/-- What the node makes of the network when it processes a request. -/
structure Delivered (messageSize : Message → Nat)
    (permits : FileMode → Text → Bool) (network : Network)
    (now connId : Int) (index : Nat) (asked : InFlight)
    (after : StorageNode.NodeWorker) (later : Network) : Prop where
  present : network.requests[index]? = some asked
  received : Worker.receive (StorageNode.program permits messageSize) now
    connId 0 asked.package (network.nodes asked.serviceId) = some after
  server : later.server = network.server
  node : later.nodes asked.serviceId = after
  other : ∀ serviceId, serviceId ≠ asked.serviceId →
    later.nodes serviceId = network.nodes serviceId
  requests : ∀ other ∈ later.requests, other ∈ network.requests
  responses : ∀ answer ∈ later.responses, answer ∈ network.responses ∨
    asked.connected = true ∧
      ∃ out ∈ pushedSince (network.nodes asked.serviceId) after,
        answer = response asked out

theorem delivered_of_step {network later : Network} {now connId : Int}
    {index : Nat}
    (stepped : network.step messageSize permits
      (.deliverRequest now connId index) = some later) :
    ∃ asked after, Delivered messageSize permits network now connId index
      asked after later := by
  obtain ⟨asked, present, ran⟩ := Option.bind_eq_some_iff.mp stepped
  obtain ⟨after, received, rfl⟩ := Option.map_eq_some_iff.mp ran
  refine ⟨asked, after, present, received, rfl, Function.update_self ..,
    fun serviceId different => Function.update_of_ne different .., ?_, ?_⟩
  · exact fun other kept => List.mem_of_mem_eraseIdx kept
  · intro answer answered
    refine (List.mem_append.mp answered).imp_right fun new => ?_
    split at new
    · rename_i connected
      obtain ⟨out, pushed, rfl⟩ := List.mem_map.mp new
      exact ⟨connected, out, pushed, rfl⟩
    · cases new

/-! ## The invariant -/

/-- The nodes as they start, each on the files that it has stored. -/
def storagesOf (sharingPath : Int → Text)
    (stored : Int → Table Text (List UInt8)) (serviceId : Int) : Storage :=
  .init (sharingPath serviceId) (stored serviceId)

section Invariant

variable (messageSize : Message → Nat) (permits : FileMode → Text → Bool)
  (sharingPath : Int → Text) (stored : Int → Table Text (List UInt8))

/-- The byte was there from the start, or an upload laid it. -/
def HasOrigin (events : List Event) (serviceId : Int) (path : Text)
    (position : Nat) (byte : UInt8) : Prop :=
  ((stored serviceId)[path]?.getD [])[position]? = some byte ∨
    ∃ upload session,
      Laid messageSize permits (storagesOf sharingPath stored) events upload
        session position byte ∧
      upload.serviceId = serviceId ∧
      path = sharingPath serviceId ++ '/' :: session.filename

/-- What holds after the events of every run. -/
structure Attributed (events : List Event) (network : Network) : Prop where
  numbered : ∀ serviceId, (network.nodes serviceId).app.Numbered
  placed : ∀ serviceId,
    (network.nodes serviceId).app.files.sharingPath = sharingPath serviceId
  requests : ∀ asked ∈ network.requests, ∀ forwarded,
    asked.package.content = some (.reqPutFile forwarded) →
    ∃ upload,
      Forwarded messageSize permits (storagesOf sharingPath stored) events
        upload ∧
      upload.serviceId = asked.serviceId ∧ upload.forward = asked.package
  unasked : ∀ answer ∈ network.responses, ∀ forwarded,
    answer.package.content ≠ some (.reqPutFile forwarded)
  bytes : ∀ serviceId path position byte,
    ((network.nodes serviceId).app.files.contentOf path)[position]? =
      some byte →
    HasOrigin messageSize permits sharingPath stored events serviceId path
      position byte

end Invariant

section Steps

variable {sharingPath : Int → Text} {stored : Int → Table Text (List UInt8)}
  {events : List Event} {network later : Network} {event : Event}

theorem HasOrigin.snoc {serviceId : Int} {path : Text} {position : Nat}
    {byte : UInt8}
    (origin : HasOrigin messageSize permits sharingPath stored events
      serviceId path position byte) (event : Event) :
    HasOrigin messageSize permits sharingPath stored (events ++ [event])
      serviceId path position byte :=
  origin.imp_right fun ⟨upload, session, laid, rest⟩ =>
    ⟨upload, session, laid.snoc event, rest⟩

theorem attributed_init :
    Attributed messageSize permits sharingPath stored []
      (init (storagesOf sharingPath stored)) where
  numbered := fun _ => Storage.numbered_init _ _
  placed := fun _ => rfl
  requests := by simp [init]
  unasked := by simp [init]
  bytes := fun _ _ _ _ present => Or.inl present

theorem Attributed.snoc
    (attributed : Attributed messageSize permits sharingPath stored events
      network) (event : Event) :
    Attributed messageSize permits sharingPath stored (events ++ [event])
      network where
  numbered := attributed.numbered
  placed := attributed.placed
  requests := by
    intro asked present forwarded content
    obtain ⟨upload, sent, rest⟩ :=
      attributed.requests asked present forwarded content
    exact ⟨upload, sent.snoc event, rest⟩
  unasked := attributed.unasked
  bytes := fun serviceId path position byte present =>
    (attributed.bytes serviceId path position byte present).snoc event

/-- What adds no message and leaves the nodes alone keeps the invariant. -/
theorem Attributed.sameNodes
    (attributed : Attributed messageSize permits sharingPath stored events
      network) (nodes : later.nodes = network.nodes)
    (requests : ∀ asked ∈ later.requests, ∃ old ∈ network.requests,
      old.package = asked.package ∧ old.serviceId = asked.serviceId)
    (responses : ∀ answer ∈ later.responses, answer ∈ network.responses) :
    Attributed messageSize permits sharingPath stored events later := by
  refine ⟨?_, ?_, ?_, fun answer present =>
    attributed.unasked answer (responses answer present), ?_⟩
  · rw [nodes]
    exact attributed.numbered
  · rw [nodes]
    exact attributed.placed
  · intro asked present forwarded content
    obtain ⟨old, kept, package, serviceId⟩ := requests asked present
    rw [← package] at content ⊢
    rw [← serviceId]
    exact attributed.requests old kept forwarded content
  · rw [nodes]
    exact attributed.bytes

theorem nodes_of_serverStep {own : Worker.Event Message ServerCall}
    (stepped : network.serverStep messageSize own = some later) :
    later.nodes = network.nodes := by
  obtain ⟨server, ran, rfl⟩ := Option.map_eq_some_iff.mp stepped
  rfl

/-- A step of the worker of the server keeps the invariant, when it passes
fragments on for clients only. -/
theorem Attributed.serverStep {own : Worker.Event Message ServerCall}
    (attributed : Attributed messageSize permits sharingPath stored events
      network)
    (stepped : network.serverStep messageSize own = some later)
    (asks : ∀ now connId serviceId package request user session,
      own = .receive now connId serviceId package →
      Advances network.server.app connId package request user session →
      event = .client now connId package ∧
        (machine messageSize permits (storagesOf sharingPath stored)).Reaches
          events network ∧
        network.step messageSize permits event = some later) :
    Attributed messageSize permits sharingPath stored (events ++ [event])
      later := by
  have step := serverStepped_of_serverStep stepped
  have nodes := nodes_of_serverStep stepped
  refine ⟨?_, ?_, ?_, ?_, ?_⟩
  · rw [nodes]
    exact attributed.numbered
  · rw [nodes]
    exact attributed.placed
  · intro asked present forwarded content
    rcases step.requests asked present with old | ⟨out, pushed, rfl⟩
    · obtain ⟨upload, sent, rest⟩ :=
        attributed.requests asked old forwarded content
      exact ⟨upload, sent.snoc event, rest⟩
    · obtain ⟨send, sent, bears⟩ :=
        bears_of_mem_pushedSince step.stepped pushed
      have message : send.message = .reqPutFile forwarded :=
        Option.some.inj (bears.content.symm.trans content)
      obtain ⟨now, connId, serviceId, package, request, user, session, group,
        node, same, advances, listed, known, target, rfl⟩ :=
        forwarded_of_turn sent message
      obtain ⟨rfl, reaches, stepped⟩ := asks _ _ _ _ _ _ _ same advances
      have opened := openedByManager_of_reaches
        (reaches_serverHistory reaches) advances.found
      exact ⟨{ connId := connId, package := package, request := request
               session := session, serviceId := out.serviceId
               forward := out.package },
        ⟨events, now, [], network, later, user, rfl, reaches, stepped,
          advances, opened, ⟨group, node, listed, known,
            (bears.serviceId.trans target).symm⟩, content, out, pushed, rfl,
          rfl⟩, rfl, rfl⟩
  · intro answer present
    rw [step.responses] at present
    exact attributed.unasked answer present
  · rw [nodes]
    intro serviceId path position byte present
    exact (attributed.bytes serviceId path position byte present).snoc event

/-- What a node stores for a package comes from the upload of the package. -/
theorem Attributed.delivered
    (attributed : Attributed messageSize permits sharingPath stored events
      network)
    (reaches : (machine messageSize permits
      (storagesOf sharingPath stored)).Reaches events network)
    {now connId : Int} {index : Nat} {asked : InFlight}
    {after : StorageNode.NodeWorker}
    (delivered : Delivered messageSize permits network now connId index asked
      after later) :
    Attributed messageSize permits sharingPath stored
      (events ++ [.deliverRequest now connId index]) later := by
  have numbered := attributed.numbered asked.serviceId
  have inFlight := List.mem_of_getElem? delivered.present
  refine ⟨?_, ?_, ?_, ?_, ?_⟩
  · intro serviceId
    by_cases same : serviceId = asked.serviceId
    · rw [same, delivered.node]
      exact StorageNode.numbered_of_receive numbered delivered.received
    · rw [delivered.other serviceId same]
      exact attributed.numbered serviceId
  · intro serviceId
    by_cases same : serviceId = asked.serviceId
    · rw [same, delivered.node, StorageNode.sharingPath_of_receive
        numbered.keyed delivered.received]
      exact attributed.placed asked.serviceId
    · rw [delivered.other serviceId same]
      exact attributed.placed serviceId
  · intro other kept forwarded content
    obtain ⟨upload, sent, rest⟩ := attributed.requests other
      (delivered.requests other kept) forwarded content
    exact ⟨upload, sent.snoc _, rest⟩
  · intro answer answered
    rcases delivered.responses answer answered with
      old | ⟨-, out, pushed, rfl⟩
    · exact attributed.unasked answer old
    · obtain ⟨send, answers, carries⟩ := carries_of_mem_pushedSince
        (StorageNode.receive_opens delivered.received) pushed
      intro forwarded content
      exact answers.noRequest forwarded
        (Option.some.inj (carries.content.symm.trans content))
  · intro serviceId path position byte there
    by_cases same : serviceId = asked.serviceId
    · subst same
      rw [delivered.node] at there
      have asks : ∀ request,
          asked.package.content = some (.reqPutFile request) →
          ∃ upload, Forwarded messageSize permits
              (storagesOf sharingPath stored) events upload ∧
            upload.serviceId = asked.serviceId ∧
            upload.forward = asked.package ∧ request = upload.asked := by
        intro request content
        obtain ⟨upload, sent, target, forward⟩ :=
          attributed.requests asked inFlight request content
        refine ⟨upload, sent, target, forward, ?_⟩
        obtain ⟨_, _, _, _, _, _, -, -, -, -, -, -, forwarded, -⟩ := sent
        rw [forward, content] at forwarded
        cases forwarded
        rfl
      have nonneg : ∀ request,
          asked.package.content = some (.reqPutFile request) →
          0 ≤ request.fragmentIndex := by
        intro request content
        obtain ⟨upload, sent, -, -, rfl⟩ := asks request content
        exact sent.fragmentIndex_nonneg
      rcases StorageNode.byte_of_receive numbered.keyed delivered.received
        nonneg there with old | ⟨request, session, puts, place, lays⟩
      · exact (attributed.bytes _ _ _ _ old).snoc _
      · obtain ⟨upload, sent, target, forward, rfl⟩ :=
          asks request puts.content
        refine Or.inr ⟨upload, session, ⟨events, now, connId, index, [],
          network, asked, rfl, reaches, sent, delivered.present,
          target.symm, forward.symm, ?_, lays⟩, target, ?_⟩
        · rw [target, forward]
          exact puts
        · rw [place, StorageNode.SharingFileManager.getAbsolutePath,
            attributed.placed]
    · rw [delivered.other serviceId same] at there
      exact (attributed.bytes serviceId path position byte there).snoc _

theorem restartNode_nodes_self (network : Network) (serviceId : Int) :
    (network.restartNode serviceId).nodes serviceId =
      Worker.init (.init (network.nodes serviceId).app.files.sharingPath
        (network.nodes serviceId).app.files.files) :=
  Function.update_self ..

theorem restartNode_nodes_of_ne (network : Network)
    {serviceId other : Int} (different : other ≠ serviceId) :
    (network.restartNode serviceId).nodes other = network.nodes other :=
  Function.update_of_ne different ..

/-- A node that starts again finds the bytes that it had stored. -/
theorem Attributed.restartNode
    (attributed : Attributed messageSize permits sharingPath stored events
      network) (serviceId : Int) :
    Attributed messageSize permits sharingPath stored events
      (network.restartNode serviceId) := by
  have files (other : Int) :
      ((network.restartNode serviceId).nodes other).app.files.sharingPath =
          (network.nodes other).app.files.sharingPath ∧
        ((network.restartNode serviceId).nodes other).app.files.files =
          (network.nodes other).app.files.files := by
    by_cases same : other = serviceId
    · subst same
      rw [restartNode_nodes_self]
      exact ⟨rfl, rfl⟩
    · rw [restartNode_nodes_of_ne network same]
      exact ⟨rfl, rfl⟩
  refine ⟨?_, ?_, attributed.requests, attributed.unasked, ?_⟩
  · intro other
    by_cases same : other = serviceId
    · subst same
      rw [restartNode_nodes_self]
      exact Storage.numbered_init _ _
    · rw [restartNode_nodes_of_ne network same]
      exact attributed.numbered other
  · intro other
    exact (files other).1.trans (attributed.placed other)
  · intro other path position byte present
    apply attributed.bytes other path position byte
    rw [StorageNode.SharingFileManager.contentOf, (files other).2] at present
    exact present

/-- Every step keeps the invariant. -/
theorem Attributed.step
    (attributed : Attributed messageSize permits sharingPath stored events
      network)
    (reaches : (machine messageSize permits
      (storagesOf sharingPath stored)).Reaches events network)
    (stepped : network.step messageSize permits event = some later) :
    Attributed messageSize permits sharingPath stored (events ++ [event])
      later := by
  cases event with
  | client now connId package =>
      refine attributed.serverStep stepped ?_
      rintro _ _ _ _ request user session same advances
      cases same
      exact ⟨rfl, reaches, stepped⟩
  | internal call =>
      refine attributed.serverStep stepped ?_
      rintro _ _ _ _ _ _ _ same
      cases same
  | expire now timerId =>
      refine attributed.serverStep stepped ?_
      rintro _ _ _ _ _ _ _ same
      cases same
  | restartServer rest =>
      cases stepped
      refine (attributed.snoc _).sameNodes rfl ?_ (by simp [restartServer])
      intro asked present
      obtain ⟨old, kept, rfl⟩ := List.mem_map.mp present
      exact ⟨old, kept, rfl, rfl⟩
  | deliverRequest now connId index =>
      obtain ⟨asked, after, delivered⟩ := delivered_of_step stepped
      exact attributed.delivered reaches delivered
  | deliverResponse now connId index =>
      obtain ⟨answer, present, ran⟩ := Option.bind_eq_some_iff.mp stepped
      have erased : Attributed messageSize permits sharingPath stored events
          { network with responses := network.responses.eraseIdx index } :=
        attributed.sameNodes rfl
          (fun asked kept => ⟨asked, kept, rfl, rfl⟩)
          fun _ kept => List.mem_of_mem_eraseIdx kept
      refine erased.serverStep ran ?_
      rintro _ _ _ _ request user session same advances
      cases same
      exact absurd advances.content
        (attributed.unasked answer (List.mem_of_getElem? present) request)
  | loseRequest index =>
      cases stepped
      exact (attributed.snoc _).sameNodes rfl (fun asked kept =>
        ⟨asked, List.mem_of_mem_eraseIdx kept, rfl, rfl⟩) fun _ kept => kept
  | loseResponse index =>
      cases stepped
      exact (attributed.snoc _).sameNodes rfl (fun asked kept =>
        ⟨asked, kept, rfl, rfl⟩) fun _ kept => List.mem_of_mem_eraseIdx kept
  | restartNode serviceId =>
      cases stepped
      exact (attributed.snoc _).restartNode serviceId

end Steps

/-! ## Every run -/

theorem attributed_of_reaches {sharingPath : Int → Text}
    {stored : Int → Table Text (List UInt8)} {events : List Event}
    {network : Network}
    (reaches : (machine messageSize permits
      (storagesOf sharingPath stored)).Reaches events network) :
    Attributed messageSize permits sharingPath stored events network := by
  refine Machine.Reaches.induction
    (motive := fun events network =>
      Attributed messageSize permits sharingPath stored events network)
    attributed_init ?_ reaches
  intro events network event later reaches attributed stepped
  exact attributed.step reaches stepped

/-- However messages are delayed, reordered, lost and timed out, and
processes started again: every byte on a node was stored there from the start,
or the node laid it for a package that the server had sent for a fragment of
the logged-in owner of a put session, which a manager of the group had
opened; and it lies where the index of the fragment puts it, or is a zero
below. -/
theorem stored_by_uploads {sharingPath : Int → Text}
    {stored : Int → Table Text (List UInt8)} {events : List Event}
    {network : Network}
    (reaches : (machine messageSize permits
      (storagesOf sharingPath stored)).Reaches events network)
    {serviceId : Int} {path : Text} {position : Nat} {byte : UInt8}
    (present : ((network.nodes serviceId).app.files.contentOf
      path)[position]? = some byte) :
    HasOrigin messageSize permits sharingPath stored events serviceId path
      position byte :=
  (attributed_of_reaches reaches).bytes serviceId path position byte present

def storedNetwork : Network :=
  (exampleMachine.run exampleMachine.start storedEvents).get
    (by decide +kernel)

theorem stored_by_uploads_fragment :
    HasOrigin (fun _ => 0) (fun _ _ => true) (fun _ => ['d']) (fun _ => ∅)
      storedEvents 2 ['d', '/', 'f'] 0 7 := by
  have reaches : (machine (fun _ => 0) (fun _ _ => true)
      (storagesOf (fun _ => ['d']) fun _ => ∅)).Reaches storedEvents
        storedNetwork := (Option.some_get _).symm
  exact stored_by_uploads reaches (by decide +kernel)

end Network

end System
end Spaceless
