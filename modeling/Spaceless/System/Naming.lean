import Spaceless.System.Provenance

/-!
# The names that uploads are stored under

A node stores a fragment in the file of its own session, which is not that of
the server.  The server learns the session from the answer of the node, and
that answer may be late, lost or one to a session that is gone.  As long as
the nodes go on running with the services that they have, a fragment is still
stored in the file that its put session was opened for.
-/

namespace Spaceless
namespace System

open Logic Foundation ResourceServer
open Protocol (Message ReqPutFile ReqNodePutFileSession
  RspNodePutFileSession)
open StorageNode (FileMode FileSession Storage NodeWorker)

namespace Network

variable {messageSize : Message → Nat}
  {permits : FileMode → Text → Bool}

/-- The name of the file that a put session is for. -/
def fileNameOf (session : PutFileSession) : Text :=
  (FilePath.ofText session.filePath).filename

/-- The node has given the id to a session for a file of the name. -/
def HasSession (node : NodeWorker) (sessionId : Int) (filename : Text) :
    Prop :=
  ∃ session, node.app.Names session ∧ session.sessionId = sessionId ∧
    session.filename = filename

/-- Every node of the server has a service. -/
def AllServed (network : Network) : Prop :=
  ∀ nodeId node, network.server.app.nodes.findNode nodeId = some node →
    node.serviceId ≠ 0

/-- Every node has a service when the server processes a package, no node is
given another one, and no node is started again. -/
def StepKept (network : Network) : Event → Prop
  | .client _ _ _ => network.AllServed
  | .deliverResponse _ _ _ => network.AllServed
  | .internal call => KeepsEachService network.server.app (.internal call)
  | .restartNode _ => False
  | _ => True

/-- The package id is bound to a transaction that waits for the node's session
of the put session, which leads to the service. -/
structure AsksSession (network : Network) (packageId sessionId : Int)
    (filename : Text) (serviceId : Int) : Prop where
  known : packageId < network.server.packages.nextId
  served : serviceId ≠ 0
  routes : Routes network.server.app sessionId filename serviceId
  bound : ∀ (transId : Int) (trans : MultiplyPhaseTransaction TransSelf),
    network.server.bindList[packageId]? = some transId →
    network.server.transList[transId]? = some trans →
    trans.self = .putFileSession sessionId

/-- What holds after the events of a run whose steps meet the condition. -/
structure Routed (messageSize : Message → Nat)
    (permits : FileMode → Text → Bool) (storages : Int → Storage)
    (events : List Event) (network : Network) : Prop where
  waits : ∀ (transId : Int) (trans : MultiplyPhaseTransaction TransSelf)
    (sessionId : Int),
    network.server.transList[transId]? = some trans →
    trans.self = .putFileSession sessionId →
    trans.waitConnId = 0 ∧ trans.waitServiceId ≠ 0
  requests : ∀ asked ∈ network.requests, asked.connected = true →
    ∀ request,
    asked.package.content = some (.reqNodePutFileSession request) →
    ∃ sessionId, network.AsksSession asked.package.selfPackageId sessionId
      request.filePath asked.serviceId
  responses : ∀ answer ∈ network.responses, ∀ response,
    answer.package.content = some (.rspNodePutFileSession response) →
    response.error = none →
    ∃ sessionId filename,
      network.AsksSession answer.package.triggerPackageId sessionId filename
        answer.serviceId ∧
      HasSession (network.nodes answer.serviceId) response.sessionId filename
  sessions : ∀ sessionId session,
    network.server.app.sessions.findPutSession sessionId = some session →
    session.nodeSessionId = 0 ∨ ∃ serviceId, serviceId ≠ 0 ∧
      OnService network.server.app session.groupId serviceId ∧
      HasSession (network.nodes serviceId) session.nodeSessionId
        (fileNameOf session)
  uploads : ∀ upload,
    Forwarded messageSize permits storages events upload →
    upload.session.nodeSessionId = 0 ∨
      HasSession (network.nodes upload.serviceId)
        upload.session.nodeSessionId (fileNameOf upload.session)

variable {storages : Int → Storage} {events : List Event}
  {network later : Network} {event : Event}

theorem routed_init :
    Routed messageSize permits storages [] (init storages) where
  waits := by
    intro transId trans sessionId found
    simp [init, Worker.init] at found
  requests := by simp [init]
  responses := by simp [init]
  sessions := by
    intro sessionId session found
    simp [init, Worker.init, Server.init, FileSessionManager.init,
      FileSessionManager.findPutSession] at found
  uploads := by
    rintro upload ⟨first, now, second, before, after, user, split, -⟩
    simp at split

/-- A fragment that a run has passed on was passed on before its last step, or
in it. -/
theorem Forwarded.of_snoc {upload : Upload}
    (reaches : (machine messageSize permits storages).Reaches events network)
    (forwarded : Forwarded messageSize permits storages (events ++ [event])
      upload) :
    Forwarded messageSize permits storages events upload ∨
      ∃ user, Advances network.server.app upload.connId upload.package
          upload.request user upload.session ∧
        OnService network.server.app upload.session.groupId
          upload.serviceId := by
  obtain ⟨first, now, second, before, after, user, split, reached, stepped,
    advances, opened, on, rest⟩ := forwarded
  rcases List.eq_nil_or_concat second with rfl | ⟨init, last, rfl⟩
  · obtain ⟨rfl, -⟩ := List.append_inj' split rfl
    cases reached.unique reaches
    exact Or.inr ⟨user, advances, on⟩
  · refine Or.inl ⟨first, now, init, before, after, user, ?_, reached,
      stepped, advances, opened, on, rest⟩
    rw [List.concat_eq_append, ← List.cons_append, ← List.append_assoc]
      at split
    exact (List.append_inj' split rfl).1

/-- A fragment that the last step has passed on is for the session that the
server knows of the node. -/
theorem Routed.snoc
    (routed : Routed messageSize permits storages events network)
    (reaches : (machine messageSize permits storages).Reaches events network)
    (event : Event) :
    Routed messageSize permits storages (events ++ [event]) network where
  waits := routed.waits
  requests := routed.requests
  responses := routed.responses
  sessions := routed.sessions
  uploads := by
    intro upload forwarded
    rcases forwarded.of_snoc reaches with old | ⟨user, advances, on⟩
    · exact routed.uploads upload old
    · refine (routed.sessions _ _ advances.found).imp_right ?_
      rintro ⟨serviceId, -, other, has⟩
      rw [on.unique other]
      exact has

/-! ## A step of the server -/

section ServerStep

variable {own : Worker.Event Message ServerCall}

theorem AsksSession.step {packageId sessionId serviceId : Int}
    {filename : Text}
    (asks : network.AsksSession packageId sessionId filename serviceId)
    (reachable : (serverMachine messageSize).Reachable network.server)
    (stepped : Worker.step (program messageSize) network.server own =
      some later.server)
    (keeps : KeepsEachService network.server.app own) :
    later.AsksSession packageId sessionId filename serviceId := by
  have pushes := (Worker.step_turned stepped).pushes
  refine ⟨Int.lt_of_lt_of_le asks.known pushes.counted, asks.served,
    asks.routes.step asks.served reachable stepped keeps, ?_⟩
  intro transId trans leads found
  rcases pushes.bound _ transId leads with old | ⟨range, -⟩
  · have known := (bindings_of_reachable reachable _ transId old).2
    exact asks.bound transId trans old
      ((waitsOnce messageSize).registered_of_step stepped found known)
  · exact absurd asks.known (by omega)

/-- A request for a node's session that the step sends. -/
theorem asksSession_of_pushed
    (reachable : (serverMachine messageSize).Reachable network.server)
    (stepped : Worker.step (program messageSize) network.server own =
      some later.server)
    (served : ∀ now connId serviceId package,
      own = .receive now connId serviceId package → network.AllServed)
    {out : OutMessage Message}
    (present : out ∈ pushedSince network.server later.server)
    {request : ReqNodePutFileSession}
    (content : out.package.content =
      some (.reqNodePutFileSession request)) :
    ∃ sessionId, later.AsksSession out.package.selfPackageId sessionId
      request.filePath out.serviceId := by
  obtain ⟨send, sent, carries⟩ := carries_of_mem_pushedSince
    (Worker.step_turned stepped).pushes present
  have message : send.message = .reqNodePutFileSession request :=
    Option.some.inj (carries.content.symm.trans content)
  obtain ⟨now, connId, serviceId, package, nodeId, node, trans, sessionId,
    same, known, target, binds, registered, awaits⟩ :=
    awaits_of_turn reachable stepped sent message
  have own := carries.serviceId.trans target
  refine ⟨sessionId, carries.fresh.2, ?_, ?_, ?_⟩
  · rw [own]
    exact served _ _ _ _ same nodeId node known
  · rw [own]
    exact awaits.routes
  · intro transId other leads found
    rcases carries.bound transId leads with old | ⟨rfl, -⟩
    · have known := (bindings_of_reachable reachable _ transId old).1
      have fresh := carries.fresh.1
      omega
    · rw [binds] at found
      cases registered.symm.trans found
      exact awaits.self

/-- A step of the worker of the server keeps the invariant, when a package is
processed with all nodes served, and comes from a client or a node that has
answered. -/
theorem Routed.serverStep
    (routed : Routed messageSize permits storages events network)
    (reachable : (serverMachine messageSize).Reachable network.server)
    (stepped : network.serverStep messageSize own = some later)
    (keeps : KeepsEachService network.server.app own)
    (served : ∀ now connId serviceId package,
      own = .receive now connId serviceId package → network.AllServed)
    (answered : ∀ now connId serviceId package response,
      own = .receive now connId serviceId package →
      package.content = some (.rspNodePutFileSession response) →
      response.error = none →
      serviceId = 0 ∨ ∃ sessionId filename,
        network.AsksSession package.triggerPackageId sessionId filename
          serviceId ∧
        HasSession (network.nodes serviceId) response.sessionId filename) :
    Routed messageSize permits storages events later := by
  have step := serverStepped_of_serverStep stepped
  have nodes := nodes_of_serverStep stepped
  refine ⟨?_, ?_, ?_, ?_, ?_⟩
  · intro transId trans sessionId found self
    have registered : network.server.transList[transId]? = some trans ∨
        trans.waitConnId = 0 ∧ trans.waitServiceId ≠ 0 := by
      cases own with
      | receive now connId serviceId package =>
          refine (registered_putFileSession reachable step.stepped found
            self).imp_right ?_
          rintro ⟨nodeId, node, filename, known, awaits⟩
          refine ⟨awaits.waitConnId, ?_⟩
          rw [awaits.waitServiceId]
          exact served _ _ _ _ rfl nodeId node known
      | internal call =>
          have called : Worker.callInternal (program messageSize) call
              network.server = some later.server := step.stepped
          rw [Worker.eq_of_callInternal called] at found
          exact Or.inl found
      | expire now timerId =>
          exact Or.inl ((waitsOnce messageSize).registered_of_expire
            step.stepped found)
    rcases registered with old | waits
    · exact routed.waits transId trans sessionId old self
    · exact waits
  · intro asked present connected request content
    rcases step.requests asked present with old | ⟨out, pushed, rfl⟩
    · obtain ⟨sessionId, asks⟩ :=
        routed.requests asked old connected request content
      exact ⟨sessionId, asks.step reachable step.stepped keeps⟩
    · exact asksSession_of_pushed reachable step.stepped served pushed
        content
  · intro answer present response content noError
    rw [step.responses] at present
    obtain ⟨sessionId, filename, asks, has⟩ :=
      routed.responses answer present response content noError
    refine ⟨sessionId, filename, asks.step reachable step.stepped keeps, ?_⟩
    rw [nodes]
    exact has
  · intro sessionId session found
    rw [nodes]
    rcases putSession_of_step reachable step.stepped found with
      ⟨old, before, group, path⟩ | ⟨-, unset⟩
    · have name : fileNameOf session = fileNameOf old := by
        rw [fileNameOf, fileNameOf, path]
      rw [← group, name]
      rcases nodeSessions_of_step reachable step.stepped sessionId session
        found with unset | ⟨other, same, id⟩ |
          ⟨now, connId, serviceId, package, rfl, waiting, response, answers,
            fits, self, content, noError, id⟩
      · exact Or.inl unset
      · cases before.symm.trans same
        rw [← id]
        refine (routed.sessions sessionId old before).imp_right ?_
        rintro ⟨serviceId, nonzero, on, has⟩
        exact ⟨serviceId, nonzero,
          on.step nonzero reachable step.stepped keeps, has⟩
      · obtain ⟨transId, bound, registered, -, -⟩ :=
          (transIds_of_reachable reachable).waiting answers
        rcases answered _ _ _ _ response rfl content noError with
          rfl | ⟨otherId, filename, asks, has⟩
        · -- no service has the id 0, so a client does not answer for a node
          obtain ⟨noConn, service⟩ :=
            routed.waits transId waiting sessionId registered self
          simp only [MultiplyPhaseTransaction.fits, noConn, ne_eq,
            not_true_eq_false, if_false, Bool.and_eq_true, beq_iff_eq]
            at fits
          exact absurd fits.1.symm service
        · cases self.symm.trans (asks.bound transId waiting bound registered)
          obtain ⟨named, on⟩ := asks.routes.leads old before
          refine Or.inr ⟨serviceId, asks.served,
            on.step asks.served reachable step.stepped keeps, ?_⟩
          rw [← id, fileNameOf, named]
          exact has
    · exact Or.inl unset
  · rw [nodes]
    exact routed.uploads

end ServerStep

/-! ## The other steps -/

section OtherSteps

theorem AsksSession.sameServer {packageId sessionId serviceId : Int}
    {filename : Text}
    (asks : network.AsksSession packageId sessionId filename serviceId)
    (server : later.server = network.server) :
    later.AsksSession packageId sessionId filename serviceId := by
  obtain ⟨known, served, routes, bound⟩ := asks
  rw [← server] at known routes bound
  exact ⟨known, served, routes, bound⟩

/-- What leaves the server alone keeps the invariant, when no node takes a
session back and every new answer is to a request of the server. -/
theorem Routed.sameServer
    (routed : Routed messageSize permits storages events network)
    (server : later.server = network.server)
    (kept : ∀ serviceId sessionId filename,
      HasSession (network.nodes serviceId) sessionId filename →
      HasSession (later.nodes serviceId) sessionId filename)
    (requests : ∀ asked ∈ later.requests, asked ∈ network.requests)
    (responses : ∀ answer ∈ later.responses, answer ∈ network.responses ∨
      ∀ response,
        answer.package.content = some (.rspNodePutFileSession response) →
        ∃ sessionId filename,
          network.AsksSession answer.package.triggerPackageId sessionId
            filename answer.serviceId ∧
          HasSession (later.nodes answer.serviceId) response.sessionId
            filename) :
    Routed messageSize permits storages events later := by
  refine ⟨?_, ?_, ?_, ?_, ?_⟩
  · rw [server]
    exact routed.waits
  · intro asked present connected request content
    obtain ⟨sessionId, asks⟩ := routed.requests asked
      (requests asked present) connected request content
    exact ⟨sessionId, asks.sameServer server⟩
  · intro answer present response content noError
    rcases responses answer present with old | new
    · obtain ⟨sessionId, filename, asks, has⟩ :=
        routed.responses answer old response content noError
      exact ⟨sessionId, filename, asks.sameServer server, kept _ _ _ has⟩
    · obtain ⟨sessionId, filename, asks, has⟩ := new response content
      exact ⟨sessionId, filename, asks.sameServer server, has⟩
  · rw [server]
    intro sessionId session found
    refine (routed.sessions sessionId session found).imp_right ?_
    rintro ⟨serviceId, nonzero, on, has⟩
    exact ⟨serviceId, nonzero, on, kept _ _ _ has⟩
  · intro upload forwarded
    exact (routed.uploads upload forwarded).imp_right (kept _ _ _)

variable {now connId : Int} {index : Nat} {asked : InFlight}
  {after : NodeWorker}

/-- A node that processes a request takes no session id back. -/
theorem HasSession.delivered {serviceId sessionId : Int} {filename : Text}
    (has : HasSession (network.nodes serviceId) sessionId filename)
    (delivered : Delivered messageSize permits network now connId index asked
      after later) :
    HasSession (later.nodes serviceId) sessionId filename := by
  by_cases same : serviceId = asked.serviceId
  · obtain ⟨session, names, id, named⟩ := has
    rw [same] at names ⊢
    rw [delivered.node]
    exact ⟨session, StorageNode.names_of_receive names delivered.received,
      id, named⟩
  · rw [delivered.other serviceId same]
    exact has

/-- The session that a node answers is for the file of the request. -/
theorem Routed.delivered
    (routed : Routed messageSize permits storages events network)
    (keyed : (network.nodes asked.serviceId).app.sessions.Keyed)
    (delivered : Delivered messageSize permits network now connId index asked
      after later) :
    Routed messageSize permits storages events later := by
  refine routed.sameServer delivered.server
    (fun _ _ _ has => has.delivered delivered) delivered.requests ?_
  intro answer answered
  refine (delivered.responses answer answered).imp_right ?_
  rintro ⟨connected, out, pushed, rfl⟩ response content
  obtain ⟨send, answers, carries⟩ := carries_of_mem_pushedSince
    (StorageNode.receive_opens delivered.received) pushed
  have opens := answers.opens response
    (Option.some.inj (carries.content.symm.trans content))
  obtain ⟨request, session, asks, names, id, named⟩ :=
    opens.names keyed delivered.received
  obtain ⟨sessionId, waiting⟩ := routed.requests asked
    (List.mem_of_getElem? delivered.present) connected request asks
  have trigger : out.package.triggerPackageId = asked.package.selfPackageId :=
    carries.trigger.trans answers.trigger
  refine ⟨sessionId, request.filePath, ?_, ?_⟩
  · rw [← trigger] at waiting
    exact waiting
  · change HasSession (later.nodes asked.serviceId) _ _
    rw [delivered.node]
    exact ⟨session, names, id, named⟩

theorem Routed.restartServer
    (routed : Routed messageSize permits storages events network)
    (rest : Int → UninitializedUser) :
    Routed messageSize permits storages events
      (network.restartServer rest) where
  waits := by
    intro transId trans sessionId found
    simp [Network.restartServer, Worker.init] at found
  requests := by
    intro asked present connected
    obtain ⟨old, -, rfl⟩ := List.mem_map.mp present
    cases connected
  responses := by simp [Network.restartServer]
  sessions := by
    intro sessionId session found
    have fresh : (network.server.app.restart rest).sessions =
        FileSessionManager.init := restart_sessions ..
    simp [Network.restartServer, Worker.init, fresh, FileSessionManager.init,
      FileSessionManager.findPutSession] at found
  uploads := routed.uploads

end OtherSteps

/-! ## Every run -/

/-- A step that meets the condition keeps the invariant. -/
theorem Routed.step
    (routed : Routed messageSize permits storages events network)
    (numbered : ∀ serviceId, (network.nodes serviceId).app.Numbered)
    (reaches : (machine messageSize permits storages).Reaches events network)
    (kept : network.StepKept event)
    (stepped : network.step messageSize permits event = some later) :
    Routed messageSize permits storages (events ++ [event]) later := by
  have reachable : (serverMachine messageSize).Reachable network.server :=
    ⟨_, reaches_serverHistory reaches⟩
  replace routed := routed.snoc reaches event
  cases event with
  | client now connId package =>
      refine routed.serverStep reachable stepped trivial
        (fun _ _ _ _ _ => kept) ?_
      rintro _ _ _ _ _ same - -
      cases same
      exact Or.inl rfl
  | internal call =>
      refine routed.serverStep reachable stepped kept ?_ ?_
      · rintro _ _ _ _ ⟨⟩
      · rintro _ _ _ _ _ ⟨⟩
  | expire now timerId =>
      refine routed.serverStep reachable stepped trivial ?_ ?_
      · rintro _ _ _ _ ⟨⟩
      · rintro _ _ _ _ _ ⟨⟩
  | restartServer rest =>
      cases stepped
      exact routed.restartServer rest
  | deliverRequest now connId index =>
      obtain ⟨asked, after, delivered⟩ := delivered_of_step stepped
      exact routed.delivered (numbered asked.serviceId).keyed delivered
  | deliverResponse now connId index =>
      obtain ⟨answer, present, stepped⟩ := Option.bind_eq_some_iff.mp stepped
      have erased : Routed messageSize permits storages
          (events ++ [.deliverResponse now connId index])
          { network with responses := network.responses.eraseIdx index } :=
        routed.sameServer rfl (fun _ _ _ has => has) (fun _ kept => kept)
          fun _ kept => Or.inl (List.mem_of_mem_eraseIdx kept)
      refine erased.serverStep reachable stepped trivial
        (fun _ _ _ _ _ => kept) ?_
      rintro _ _ _ _ response same content noError
      cases same
      obtain ⟨sessionId, filename, asks, has⟩ := routed.responses answer
        (List.mem_of_getElem? present) response content noError
      exact Or.inr ⟨sessionId, filename, asks.sameServer rfl, has⟩
  | loseRequest index =>
      cases stepped
      exact routed.sameServer rfl (fun _ _ _ has => has)
        (fun _ kept => List.mem_of_mem_eraseIdx kept)
        fun _ present => Or.inl present
  | loseResponse index =>
      cases stepped
      exact routed.sameServer rfl (fun _ _ _ has => has)
        (fun _ kept => kept)
        fun _ kept => Or.inl (List.mem_of_mem_eraseIdx kept)
  | restartNode serviceId => exact kept.elim

theorem routed_of_reaches {sharingPath : Int → Text}
    {stored : Int → Table Text (List UInt8)}
    (meets : (machine messageSize permits
      (storagesOf sharingPath stored)).StepsMeet StepKept events)
    (reaches : (machine messageSize permits
      (storagesOf sharingPath stored)).Reaches events network) :
    Routed messageSize permits (storagesOf sharingPath stored) events
      network := by
  revert meets
  refine Machine.Reaches.induction
    (motive := fun events network =>
      (machine messageSize permits (storagesOf sharingPath stored)).StepsMeet
        StepKept events →
      Routed messageSize permits (storagesOf sharingPath stored) events
        network) ?_ ?_ reaches
  · exact fun _ => routed_init
  · intro events network event later reaches routed stepped meets
    exact (routed meets.of_snoc).step (attributed_of_reaches reaches).numbered
      reaches (meets.last reaches) stepped

/-- A byte that a node laid for an upload lies in the file of the name that
the put session of the server was opened for. -/
theorem Laid.filename_eq {sharingPath : Int → Text}
    {stored : Int → Table Text (List UInt8)}
    {upload : Upload} {session : FileSession} {position : Nat} {byte : UInt8}
    (meets : (machine messageSize permits
      (storagesOf sharingPath stored)).StepsMeet StepKept events)
    (laid : Laid messageSize permits (storagesOf sharingPath stored) events
      upload session position byte) :
    session.filename = fileNameOf upload.session := by
  obtain ⟨first, now, connId, index, second, before, asked, rfl, reaches,
    forwarded, -, -, -, puts, -⟩ := laid
  have routed := routed_of_reaches meets.of_append reaches
  have found : (before.nodes upload.serviceId).app.sessions.findSession
      upload.session.nodeSessionId = some session := puts.found
  rcases routed.uploads upload forwarded with unset | has
  · -- a node gives out no session id 0
    have positive := ((attributed_of_reaches reaches).numbered
      upload.serviceId).positive _ _ found
    omega
  · obtain ⟨other, names, id, named⟩ := has
    rw [names.unique session (id ▸ found)]
    exact named

/-- However messages are delayed, reordered, lost and timed out, as long
as every node has a service, keeps it and goes on running: every byte in a
file of a node was stored there from the start, or an upload laid it there,
and the put session of the upload was opened for a file of this name. -/
theorem stored_under_name {sharingPath : Int → Text}
    {stored : Int → Table Text (List UInt8)}
    (meets : (machine messageSize permits
      (storagesOf sharingPath stored)).StepsMeet StepKept events)
    (reaches : (machine messageSize permits
      (storagesOf sharingPath stored)).Reaches events network)
    {serviceId : Int} {path : Text} {position : Nat} {byte : UInt8}
    (present : ((network.nodes serviceId).app.files.contentOf
      path)[position]? = some byte) :
    ((stored serviceId)[path]?.getD [])[position]? = some byte ∨
      ∃ upload session,
        Laid messageSize permits (storagesOf sharingPath stored) events
          upload session position byte ∧
        upload.serviceId = serviceId ∧
        path = sharingPath serviceId ++ '/' :: fileNameOf upload.session := by
  refine ((attributed_of_reaches reaches).bytes _ _ _ _ present).imp_right ?_
  rintro ⟨upload, session, laid, target, place⟩
  refine ⟨upload, session, laid, target, ?_⟩
  rw [← laid.filename_eq meets]
  exact place

/-- The nodes all have a service, and the event leaves it to them. -/
def keepsAll (network : Network) : Event → Bool
  | .restartNode _ => false
  | .internal (.setService _ _) => false
  | event => servesAll network event

theorem allServed_of_servesAll (event : Event)
    (all : servesAll network event = true) : network.AllServed :=
  have served : network.StepServed (.client 0 5 fragmentPackage) :=
    stepServed_of_servesAll all
  served

theorem stepKept_of_keepsAll (all : keepsAll network event = true) :
    network.StepKept event := by
  cases event with
  | client now connId package =>
      exact allServed_of_servesAll (.client now connId package) all
  | deliverResponse now connId index =>
      exact allServed_of_servesAll (.deliverResponse now connId index) all
  | internal call =>
      cases call with
      | setService nodeId serviceId => cases all
      | _ => trivial
  | restartNode serviceId => cases all
  | _ => trivial

theorem storedEvents_kept :
    (machine (fun _ => 0) (fun _ _ => true)
      (storagesOf (fun _ => ['d']) fun _ => ∅)).StepsMeet StepKept
        storedEvents :=
  Machine.stepsMeet_of_checks (fun _ _ => stepKept_of_keepsAll)
    (by decide +kernel)

theorem stored_under_name_fragment : ∃ upload session,
    Laid (fun _ => 0) (fun _ _ => true)
      (storagesOf (fun _ => ['d']) fun _ => ∅) storedEvents upload session
      0 7 ∧
    fileNameOf upload.session = ['f'] := by
  have reaches : (machine (fun _ => 0) (fun _ _ => true)
      (storagesOf (fun _ => ['d']) fun _ => ∅)).Reaches storedEvents
        storedNetwork := (Option.some_get _).symm
  have present : ((storedNetwork.nodes 2).app.files.contentOf
      ['d', '/', 'f'])[0]? = some 7 := by
    decide +kernel
  rcases stored_under_name storedEvents_kept reaches present with
    old | ⟨upload, session, laid, -, place⟩
  · simp at old
  · exact ⟨upload, session, laid, by simpa using place.symm⟩

/-! ## A node that starts again -/

/-- The node starts again before the fragment comes, and gives the id of the
first session to another one. -/
def restartedEvents : List Event :=
  openedEvents ++
    [.restartNode 2,
      .client 0 5 (clientPackage (.reqPutFileSession
        { groupId := 1, filePath := ['g'], maxFragment := 2 })),
      .deliverRequest 0 1 0, .deliverResponse 0 1 0,
      .client 0 5 fragmentPackage, .deliverRequest 0 1 0]

def restartedNetwork : Network :=
  (exampleMachine.run exampleMachine.start restartedEvents).get
    (by decide +kernel)

/-- The fragment that the step passes on, if any, is for the file. -/
def putsOnly (filename : Text) (network : Network) : Event → Bool
  | .client _ _ package =>
      match package.content with
      | some (.reqPutFile request) =>
          (network.server.app.sessions.findPutSession request.sessionId).all
            fun session => fileNameOf session = filename
      | _ => true
  | _ => true

theorem Forwarded.filename_eq {filename : Text} {upload : Upload}
    (puts : (machine messageSize permits storages).StepsMeet
      (fun network event => putsOnly filename network event = true) events)
    (forwarded : Forwarded messageSize permits storages events upload) :
    fileNameOf upload.session = filename := by
  obtain ⟨first, now, second, before, after, user, rfl, reaches, -, advances,
    -⟩ := forwarded
  have step := puts first _ second rfl before reaches
  simpa [putsOnly, advances.content, advances.found] using step

/-- The condition on the nodes is needed: all that the server passes on is for
`f`, and after the restart of the node it lies in `g`. -/
theorem stored_elsewhere_after_restart :
    exampleMachine.Reaches restartedEvents restartedNetwork ∧
      (restartedNetwork.nodes 2).app.files.contentOf ['d', '/', 'g'] = [7] ∧
      ∀ upload, Forwarded (fun _ => 0) (fun _ _ => true)
          (fun _ => Storage.init ['d'] ∅) restartedEvents upload →
        fileNameOf upload.session = ['f'] := by
  refine ⟨(Option.some_get _).symm, by decide +kernel, ?_⟩
  intro upload forwarded
  refine forwarded.filename_eq ?_
  exact Machine.stepsMeet_of_checks (fun _ _ passes => passes)
    (by decide +kernel)

end Network

end System
end Spaceless
