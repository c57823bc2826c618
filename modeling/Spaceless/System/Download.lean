import Spaceless.ResourceServer.Forwarding
import Spaceless.StorageNode.Reading
import Spaceless.System.History

/-!
# Downloads through the server

The bytes that a client gets for a fragment are those that the node of the
file read for this very request, whatever is delivered late, lost or timed
out, and however often the processes are started again: the response is
traced back over the transaction of the server and the package that the node
answered to the request of the client.
-/

namespace Spaceless
namespace System

open Logic Foundation ResourceServer
open Protocol (Message ReqGetFile RspGetFile)
open StorageNode (FileMode Storage Fetched)

/-- A request of a client for a fragment, and the package that the server
sent to the service for it. -/
structure Download where
  connId : Int
  package : Package Message
  request : ReqGetFile
  session : GetFileSession
  serviceId : Int
  forward : Package Message

namespace Network

variable (messageSize : Message → Nat)
  (permits : FileMode → Text → Bool) (storages : Int → Storage)

/-- A step of the run passed the request of the client on, whose session was
opened by a member of the group. -/
def Requested (events : List Event) (download : Download) : Prop :=
  ∃ first now second before after,
    events = first ++
      .client now download.connId download.package :: second ∧
    (machine messageSize permits storages).Reaches first before ∧
    before.step messageSize permits
      (.client now download.connId download.package) = some after ∧
    Reads before.server.app download.connId download.package
      download.request download.session download.serviceId ∧
    OpenedByMember messageSize
      (serverHistory messageSize permits storages first) download.session ∧
    download.forward.content = some (.reqGetFile
      { sessionId := download.session.nodeSessionId
        fragmentIndex := download.request.fragmentIndex }) ∧
    ∃ out ∈ pushedSince before.server after.server,
      out.serviceId = download.serviceId ∧ out.package = download.forward

/-- Later in the run the node of the service read the response out for the
package. -/
def Served (events : List Event) (download : Download)
    (response : RspGetFile) : Prop :=
  ∃ first now connId index second before asked,
    events = first ++ .deliverRequest now connId index :: second ∧
    (machine messageSize permits storages).Reaches first before ∧
    Requested messageSize permits storages first download ∧
    before.requests[index]? = some asked ∧
    asked.serviceId = download.serviceId ∧
    asked.package = download.forward ∧
    Fetched permits (before.nodes download.serviceId).app download.forward
      response

/-- Every node has a service when a package of a client is processed. -/
def StepServed (network : Network) : Event → Prop
  | .client _ _ _ => ∀ nodeId node,
      network.server.app.nodes.findNode nodeId = some node →
      node.serviceId ≠ 0
  | _ => True

variable {messageSize permits storages}

theorem Requested.snoc {events : List Event} {download : Download}
    (requested : Requested messageSize permits storages events download)
    (event : Event) :
    Requested messageSize permits storages (events ++ [event]) download := by
  obtain ⟨first, now, second, before, after, rfl, rest⟩ := requested
  exact ⟨first, now, second ++ [event], before, after, by simp, rest⟩

theorem Served.snoc {events : List Event} {download : Download}
    {response : RspGetFile}
    (served : Served messageSize permits storages events download response)
    (event : Event) :
    Served messageSize permits storages (events ++ [event]) download
      response := by
  obtain ⟨first, now, connId, index, second, before, asked, rfl, rest⟩ :=
    served
  exact ⟨first, now, connId, index, second ++ [event], before, asked,
    by simp, rest⟩

/-! ## The invariant -/

/-- The transaction that the package of the download is bound to is that of
its request. -/
def BoundTo (network : Network) (download : Download) : Prop :=
  download.forward.selfPackageId < network.server.packages.nextId ∧
    ∀ (transId : Int) (trans : MultiplyPhaseTransaction TransSelf),
      network.server.bindList[download.forward.selfPackageId]? =
        some transId →
      network.server.transList[transId]? = some trans →
      PassedOn download.connId download.package download.session
        download.serviceId trans

variable (messageSize permits storages) in
/-- What holds after the events of a run whose steps meet the condition. -/
structure Relayed (events : List Event) (network : Network) : Prop where
  waits : ∀ (transId : Int) (trans : MultiplyPhaseTransaction TransSelf)
    (sessionId : Int),
    network.server.transList[transId]? = some trans →
    trans.self = .getFile sessionId →
    trans.waitConnId = 0 ∧ trans.waitServiceId ≠ 0
  requests : ∀ asked ∈ network.requests, asked.connected = true →
    ∀ forwarded, asked.package.content = some (.reqGetFile forwarded) →
    ∃ download, Requested messageSize permits storages events download ∧
      download.serviceId = asked.serviceId ∧
      download.forward = asked.package ∧ network.BoundTo download
  unasked : ∀ answer ∈ network.responses, ∀ forwarded,
    answer.package.content ≠ some (.reqGetFile forwarded)
  responses : ∀ answer ∈ network.responses, ∀ response,
    answer.package.content = some (.rspGetFile response) →
    ∃ download,
      Served messageSize permits storages events download response ∧
      answer.package.triggerPackageId = download.forward.selfPackageId ∧
      network.BoundTo download

theorem relayed_init :
    Relayed messageSize permits storages [] (init storages) where
  waits := by
    intro transId trans sessionId found
    simp [init, Worker.init] at found
  requests := by simp [init]
  unasked := by simp [init]
  responses := by simp [init]

/-! ## A step of the server -/

section ServerStep

variable {events : List Event} {network later : Network}
  {event : Worker.Event Message ServerCall} {systemEvent : Event}

theorem BoundTo.kept {download : Download}
    (bound : network.BoundTo download)
    (reachable : (serverMachine messageSize).Reachable network.server)
    (stepped : Worker.step (program messageSize) network.server event =
      some later.server) : later.BoundTo download := by
  have pushes := (Worker.step_turned stepped).pushes
  refine ⟨Int.lt_of_lt_of_le bound.1 pushes.counted, ?_⟩
  intro transId trans leads found
  rcases pushes.bound _ transId leads with old | ⟨range, -⟩
  · have known := (bindings_of_reachable reachable _ transId old).2
    exact bound.2 transId trans old
      ((waitsOnce messageSize).registered_of_step stepped found known)
  · exact absurd bound.1 (by omega)

/-- A request that the step sends to a node is that of the client whose
package the server processes. -/
theorem exists_requested
    (reachable : (serverMachine messageSize).Reachable network.server)
    (stepped : Worker.step (program messageSize) network.server event =
      some later.server)
    {out : OutMessage Message}
    (present : out ∈ pushedSince network.server later.server)
    {forwarded : ReqGetFile}
    (content : out.package.content = some (.reqGetFile forwarded)) :
    ∃ now serviceId download,
      event = .receive now download.connId serviceId download.package ∧
      Reads network.server.app download.connId download.package
        download.request download.session download.serviceId ∧
      download.forward.content = some (.reqGetFile
        { sessionId := download.session.nodeSessionId
          fragmentIndex := download.request.fragmentIndex }) ∧
      out.serviceId = download.serviceId ∧
      out.package = download.forward ∧ later.BoundTo download := by
  obtain ⟨send, sent, carries⟩ := carries_of_mem_pushedSince
    (Worker.step_turned stepped).pushes present
  have message : send.message = .reqGetFile forwarded :=
    Option.some.inj (carries.content.symm.trans content)
  obtain ⟨now, connId, serviceId, package, request, session, target, trans,
    rfl, reads, rfl, registered, passedOn⟩ :=
    passedOn_of_turn stepped sent message
  refine ⟨now, serviceId,
    { connId := connId, package := package, request := request
      session := session, serviceId := target, forward := out.package },
    rfl, reads, carries.content, carries.serviceId, rfl,
    carries.fresh.2, ?_⟩
  intro transId other leads found
  rcases carries.bound transId leads with old | ⟨rfl, -⟩
  · have known := (bindings_of_reachable reachable _ transId old).1
    have fresh := carries.fresh.1
    omega
  · cases registered.symm.trans found
    exact passedOn

/-- A step of the worker of the server keeps the invariant, when it passes
requests on for clients only, and to services. -/
theorem Relayed.serverStep
    (relayed : Relayed messageSize permits storages events network)
    (reachable : (serverMachine messageSize).Reachable network.server)
    (stepped : network.serverStep messageSize event = some later)
    (asks : ∀ now connId serviceId package request session target,
      event = .receive now connId serviceId package →
      Reads network.server.app connId package request session target →
      target ≠ 0 ∧ systemEvent = .client now connId package ∧
        (machine messageSize permits storages).Reaches events network ∧
        network.step messageSize permits systemEvent = some later) :
    Relayed messageSize permits storages (events ++ [systemEvent])
      later := by
  have step := serverStepped_of_serverStep stepped
  constructor
  · intro transId trans sessionId found self
    have registered : network.server.transList[transId]? = some trans ∨
        ∃ now connId serviceId package request session target,
          event = .receive now connId serviceId package ∧
          Reads network.server.app connId package request session target ∧
          PassedOn connId package session target trans := by
      cases event with
      | receive now connId serviceId package =>
          refine (registered_getFile step.stepped found self).imp_right ?_
          rintro ⟨request, session, target, reads, passedOn⟩
          exact ⟨_, _, _, _, request, session, target, rfl, reads, passedOn⟩
      | internal call =>
          have called : Worker.callInternal (program messageSize) call
              network.server = some later.server := step.stepped
          rw [Worker.eq_of_callInternal called] at found
          exact Or.inl found
      | expire now timerId =>
          exact Or.inl ((waitsOnce messageSize).registered_of_expire
            step.stepped found)
    rcases registered with
      old | ⟨_, _, _, _, _, _, target, same, reads, passedOn⟩
    · exact relayed.waits transId trans sessionId old self
    · refine ⟨passedOn.waitConnId, ?_⟩
      rw [passedOn.waitServiceId]
      exact (asks _ _ _ _ _ _ _ same reads).1
  · intro asked present connected forwarded content
    rcases step.requests asked present with old | ⟨out, pushed, rfl⟩
    · obtain ⟨download, requested, target, forward, bound⟩ :=
        relayed.requests asked old connected forwarded content
      exact ⟨download, requested.snoc systemEvent, target, forward,
        bound.kept reachable step.stepped⟩
    · obtain ⟨now, serviceId, download, same, reads, asksFor, target,
        forward, bound⟩ :=
        exists_requested reachable step.stepped pushed content
      obtain ⟨-, rfl, reaches, stepped⟩ := asks _ _ _ _ _ _ _ same reads
      have opened := openedByMember_of_reaches
        (reaches_serverHistory reaches) reads.found
      exact ⟨download, ⟨events, now, [], network, later, rfl, reaches,
        stepped, reads, opened, asksFor, out, pushed, target, forward⟩,
        target.symm, forward.symm, bound⟩
  · intro answer present
    rw [step.responses] at present
    exact relayed.unasked answer present
  · intro answer present response content
    rw [step.responses] at present
    obtain ⟨download, served, answers, bound⟩ :=
      relayed.responses answer present response content
    exact ⟨download, served.snoc systemEvent, answers,
      bound.kept reachable step.stepped⟩

end ServerStep

/-! ## The other steps -/

section OtherSteps

variable {events : List Event} {network later : Network} {event : Event}

theorem Relayed.snoc
    (relayed : Relayed messageSize permits storages events network)
    (event : Event) :
    Relayed messageSize permits storages (events ++ [event]) network where
  waits := relayed.waits
  requests := by
    intro asked present connected forwarded content
    obtain ⟨download, requested, rest⟩ :=
      relayed.requests asked present connected forwarded content
    exact ⟨download, requested.snoc event, rest⟩
  unasked := relayed.unasked
  responses := by
    intro answer present response content
    obtain ⟨download, served, rest⟩ :=
      relayed.responses answer present response content
    exact ⟨download, served.snoc event, rest⟩

/-- A change that leaves the server alone keeps the invariant when its new
responses were served. -/
theorem Relayed.sameServer
    (relayed : Relayed messageSize permits storages events network)
    (server : later.server = network.server)
    (requests : ∀ asked ∈ later.requests, asked ∈ network.requests)
    (responses : ∀ answer ∈ later.responses,
      answer ∈ network.responses ∨
        (∀ forwarded,
          answer.package.content ≠ some (.reqGetFile forwarded)) ∧
        ∀ response, answer.package.content = some (.rspGetFile response) →
          ∃ download, Served messageSize permits storages events download
              response ∧
            answer.package.triggerPackageId =
              download.forward.selfPackageId ∧
            network.BoundTo download) :
    Relayed messageSize permits storages events later := by
  obtain ⟨laterServer, nodes, laterRequests, laterResponses, uploads,
    accepted⟩ := later
  dsimp only at server
  subst server
  refine ⟨relayed.waits, ?_, ?_, ?_⟩
  · exact fun asked present =>
      relayed.requests asked (requests asked present)
  · intro answer present
    rcases responses answer present with old | ⟨unasked, -⟩
    · exact relayed.unasked answer old
    · exact unasked
  · intro answer present response content
    rcases responses answer present with old | ⟨-, served⟩
    · exact relayed.responses answer old response content
    · exact served response content

/-- A node answers the request that it processes. -/
theorem Relayed.nodeStep
    (relayed : Relayed messageSize permits storages events network)
    (reaches : (machine messageSize permits storages).Reaches events network)
    {now connId : Int} {index : Nat} {asked : InFlight}
    (present : network.requests[index]? = some asked)
    (stepped : nodeStep messageSize permits
      { network with requests := network.requests.eraseIdx index }
      now connId asked = some later) :
    Relayed messageSize permits storages
      (events ++ [.deliverRequest now connId index]) later := by
  obtain ⟨after, received, rfl⟩ := Option.map_eq_some_iff.mp stepped
  refine (relayed.snoc _).sameServer rfl
    (fun _ kept => List.mem_of_mem_eraseIdx kept) ?_
  intro answer answered
  refine (List.mem_append.mp answered).imp_right fun new => ?_
  split at new
  · rename_i connected
    obtain ⟨out, pushed, rfl⟩ := List.mem_map.mp new
    obtain ⟨send, serves, carries⟩ := carries_of_mem_pushedSince
      (StorageNode.receive_serves received) pushed
    constructor
    · intro forwarded content
      exact serves.noRequest forwarded
        (Option.some.inj (carries.content.symm.trans content))
    · intro response content
      have fetched := serves.fetched response
        (Option.some.inj (carries.content.symm.trans content))
      obtain ⟨request, asks, -⟩ := fetched.content
      obtain ⟨download, requested, target, forward, bound⟩ :=
        relayed.requests asked (List.mem_of_getElem? present) connected
          request asks
      refine ⟨download, ⟨events, now, connId, index, [], network, asked, rfl,
        reaches, requested, present, target.symm, forward.symm, ?_⟩, ?_,
        bound⟩
      · rw [target, forward]
        exact fetched
      · rw [forward]
        exact carries.trigger.trans serves.trigger
  · cases new

theorem relayed_restartServer (rest : Int → UninitializedUser) :
    Relayed messageSize permits storages
      (events ++ [.restartServer rest]) (network.restartServer rest) where
  waits := by
    intro transId trans sessionId found
    simp [restartServer, Worker.init] at found
  requests := by
    intro asked present connected
    obtain ⟨old, -, rfl⟩ := List.mem_map.mp present
    cases connected
  unasked := by simp [restartServer]
  responses := by simp [restartServer]

end OtherSteps

/-! ## Every run -/

/-- A step that meets the condition keeps the invariant. -/
theorem Relayed.step {events : List Event} {network later : Network}
    {event : Event}
    (relayed : Relayed messageSize permits storages events network)
    (reaches : (machine messageSize permits storages).Reaches events network)
    (served : network.StepServed event)
    (stepped : network.step messageSize permits event = some later) :
    Relayed messageSize permits storages (events ++ [event]) later := by
  have reachable : (serverMachine messageSize).Reachable network.server :=
    ⟨_, reaches_serverHistory reaches⟩
  cases event with
  | client now connId package =>
      refine relayed.serverStep reachable stepped ?_
      rintro _ _ _ _ request session target same reads
      cases same
      obtain ⟨_, _, nodeId, node, -, -, -, known, rfl⟩ := reads.stored
      exact ⟨served nodeId node known, rfl, reaches, stepped⟩
  | internal call =>
      refine relayed.serverStep reachable stepped ?_
      rintro _ _ _ _ _ _ _ same
      cases same
  | expire now timerId =>
      refine relayed.serverStep reachable stepped ?_
      rintro _ _ _ _ _ _ _ same
      cases same
  | restartServer rest =>
      cases stepped
      exact relayed_restartServer rest
  | deliverRequest now connId index =>
      obtain ⟨asked, present, stepped⟩ := Option.bind_eq_some_iff.mp stepped
      exact relayed.nodeStep reaches present stepped
  | deliverResponse now connId index =>
      obtain ⟨answer, present, stepped⟩ := Option.bind_eq_some_iff.mp stepped
      have erased : Relayed messageSize permits storages events
          { network with responses := network.responses.eraseIdx index } :=
        relayed.sameServer rfl (fun _ kept => kept)
          fun _ kept => Or.inl (List.mem_of_mem_eraseIdx kept)
      refine erased.serverStep reachable stepped ?_
      rintro _ _ _ _ request session target same reads
      cases same
      exact absurd reads.content
        (relayed.unasked answer (List.mem_of_getElem? present) request)
  | loseRequest index =>
      cases stepped
      exact (relayed.snoc _).sameServer rfl
        (fun _ kept => List.mem_of_mem_eraseIdx kept)
        fun _ present => Or.inl present
  | loseResponse index =>
      cases stepped
      exact (relayed.snoc _).sameServer rfl (fun _ kept => kept)
        fun _ kept => Or.inl (List.mem_of_mem_eraseIdx kept)
  | restartNode serviceId =>
      cases stepped
      exact (relayed.snoc _).sameServer rfl (fun _ kept => kept)
        fun _ kept => Or.inl kept

theorem relayed_of_reaches {events : List Event} {network : Network}
    (meets : (machine messageSize permits storages).StepsMeet StepServed
      events)
    (reaches : (machine messageSize permits storages).Reaches events
      network) :
    Relayed messageSize permits storages events network := by
  revert meets
  refine Machine.Reaches.induction
    (motive := fun events network =>
      (machine messageSize permits storages).StepsMeet StepServed events →
      Relayed messageSize permits storages events network) ?_ ?_ reaches
  · exact fun _ => relayed_init
  · intro events network event later reaches relayed stepped meets
    exact (relayed meets.of_snoc).step reaches (meets.last reaches) stepped

/-! ## Responses to clients -/

theorem bears_of_mem_pushedSince {worker last : ServerWorker}
    {event : Worker.Event Message ServerCall}
    (stepped : Worker.step (program messageSize) worker event = some last)
    {out : OutMessage Message} (present : out ∈ pushedSince worker last) :
    ∃ send ∈ (worker.turn (program messageSize) event).sends,
      Worker.Bears send out := by
  have turned := Worker.step_turned stepped
  obtain ⟨pushed, queue, -⟩ := turned.pushes.queue
  rw [pushedSince, queue, List.drop_left] at present
  exact turned.bears queue out present

/-- Only the worker of the server sends messages to clients. -/
theorem exists_workerStep {network later : Network} {event : Event}
    (stepped : network.step messageSize permits event = some later)
    {out : OutMessage Message}
    (present : out ∈ pushedSince network.server later.server) :
    ∃ own, Worker.step (program messageSize) network.server own =
        some later.server ∧
      ∀ now connId serviceId package,
        own = .receive now connId serviceId package →
        serviceId = 0 ∨ ∃ answer ∈ network.responses,
          answer.package = package := by
  have nothing {worker : ServerWorker}
      (present : out ∈ pushedSince worker worker) : False := by
    simp [pushedSince] at present
  cases event with
  | client now connId package =>
      refine ⟨_, (serverStepped_of_serverStep stepped).stepped, ?_⟩
      rintro _ _ _ _ same
      cases same
      exact Or.inl rfl
  | internal call =>
      refine ⟨_, (serverStepped_of_serverStep stepped).stepped, ?_⟩
      rintro _ _ _ _ same
      cases same
  | expire now timerId =>
      refine ⟨_, (serverStepped_of_serverStep stepped).stepped, ?_⟩
      rintro _ _ _ _ same
      cases same
  | deliverResponse now connId index =>
      obtain ⟨answer, found, stepped⟩ := Option.bind_eq_some_iff.mp stepped
      refine ⟨_, (serverStepped_of_serverStep stepped).stepped, ?_⟩
      rintro _ _ _ _ same
      cases same
      exact Or.inr ⟨answer, List.mem_of_getElem? found, rfl⟩
  | deliverRequest now connId index =>
      obtain ⟨asked, found, stepped⟩ := Option.bind_eq_some_iff.mp stepped
      obtain ⟨after, received, rfl⟩ := Option.map_eq_some_iff.mp stepped
      exact (nothing present).elim
  | restartServer rest =>
      cases stepped
      simp [pushedSince, restartServer, Worker.init] at present
  | loseRequest index =>
      cases stepped
      exact (nothing present).elim
  | loseResponse index =>
      cases stepped
      exact (nothing present).elim
  | restartNode serviceId =>
      cases stepped
      exact (nothing present).elim

/-- The session is stored under the id that the request names. -/
theorem Requested.sessionId_eq {events : List Event} {download : Download}
    (requested : Requested messageSize permits storages events download) :
    download.session.sessionId = download.request.sessionId := by
  obtain ⟨first, now, second, before, after, -, reaches, -, reads, -⟩ :=
    requested
  exact ((keyed_of_reachable ⟨_, reaches_serverHistory reaches⟩).bounds _ _
    (FileSessionManager.findGetSession_eq_some.mp reads.found)).2.2

/-- However messages are delayed, lost and timed out, and processes started
again: a fragment that the server sends to a client without an error answers
a request for it that came on the same connection earlier, from the user who
had opened the session as a member of the group, and holds what the node of
the file read afterwards for the package that the server had sent for this
request. -/
theorem fragments_relayed {events : List Event} {event : Event}
    {network later : Network}
    (meets : (machine messageSize permits storages).StepsMeet StepServed
      (events ++ [event]))
    (reaches : (machine messageSize permits storages).Reaches events network)
    (stepped : network.step messageSize permits event = some later)
    {out : OutMessage Message}
    (present : out ∈ pushedSince network.server later.server)
    {response : RspGetFile}
    (content : out.package.content = some (.rspGetFile response))
    (noError : response.error = none) :
    ∃ download read,
      Served messageSize permits storages events download read ∧
      out.target = (download.connId, download.package.selfPackageId) ∧
      response = { read with sessionId := download.request.sessionId } := by
  have relayed := relayed_of_reaches meets.of_snoc reaches
  obtain ⟨own, ran, origin⟩ := exists_workerStep stepped present
  obtain ⟨send, sent, bears⟩ := bears_of_mem_pushedSince ran present
  have message : send.message = .rspGetFile response :=
    Option.some.inj (bears.content.symm.trans content)
  obtain ⟨now, connId, serviceId, package, waiting, sessionId, read, rfl,
    answers, fits, self, reported, same, rfl⟩ :=
    passedBack_of_turn sent message noError
  obtain ⟨transId, bound, registered, -, -⟩ :=
    (transIds_of_reachable ⟨_, reaches_serverHistory reaches⟩).waiting
      answers
  rcases origin _ _ _ _ rfl with rfl | ⟨answer, inFlight, rfl⟩
  · -- no service has the id 0, so a client does not answer for a node
    obtain ⟨noConn, service⟩ :=
      relayed.waits transId waiting sessionId registered self
    simp only [MultiplyPhaseTransaction.fits, noConn, ne_eq,
      not_true_eq_false, if_false, Bool.and_eq_true, beq_iff_eq] at fits
    exact absurd fits.1.symm service
  · obtain ⟨download, served, trigger, leads, passesOn⟩ :=
      relayed.responses answer inFlight read reported
    rw [trigger] at bound
    have passedOn := passesOn transId waiting bound registered
    refine ⟨download, read, served, ?_, ?_⟩
    · have source := congrArg PackageTriggerSource.packageId
        passedOn.firstTriggerSource
      exact Prod.ext (bears.connId.trans passedOn.firstConnId)
        (bears.trigger.trans source)
    · cases self.symm.trans passedOn.self
      obtain ⟨_, _, _, _, _, _, _, -, -, requested, -⟩ := served
      rw [same, requested.sessionId_eq]

/-! ## A download of one fragment -/

/-- The root user puts `f` with one fragment. -/
def storedEvents : List Event :=
  [.internal (.registerRootUser ['r'] ['p']),
    .internal (.registerNode ['n'] 1 2),
    .internal (.registerRootGroup 1 ['g']),
    .client 0 5 (clientPackage (.reqLoginUser 1 ['p'])),
    .client 0 5 (clientPackage (.reqPutFileSession
      { groupId := 1, filePath := ['f'], maxFragment := 1 })),
    .deliverRequest 0 1 0, .deliverResponse 0 1 0,
    .client 0 5 fragmentPackage,
    .deliverRequest 0 1 0, .deliverResponse 0 1 0]

/-- The user opens a session to get it, and the node has read the fragment. -/
def readEvents : List Event :=
  storedEvents ++
    [.client 0 5 (clientPackage (.reqGetFileSession 1 ['f'])),
      .deliverRequest 0 1 0, .deliverResponse 0 1 0,
      .client 0 5 (clientPackage (.reqGetFile
        { sessionId := 2, fragmentIndex := 0 })),
      .deliverRequest 0 1 0]

def readNetwork : Network :=
  (exampleMachine.run exampleMachine.start readEvents).get
    (by decide +kernel)

def fetchedNetwork : Network :=
  (exampleMachine.step readNetwork (.deliverResponse 0 1 0)).get
    (by decide +kernel)

/-- What the server sends to the client in the last step. -/
def fetchedMessage : OutMessage Message where
  connId := 5
  serviceId := 0
  package :=
    { command := 1038
      selfPackageId := 18
      triggerPackageId := 1
      content := some (.rspGetFile
        { error := none, sessionId := 2, fragmentIndex := 0
          fragmentContent := [7] }) }

/-- The condition on a step, evaluated. -/
def servesAll (network : Network) (_ : Event) : Bool :=
  network.server.app.nodes.nodeList.toList.all fun entry =>
    entry.2.serviceId ≠ 0

theorem stepServed_of_servesAll {network : Network} {event : Event}
    (all : servesAll network event = true) : network.StepServed event := by
  cases event with
  | client now connId package =>
      intro nodeId node found
      have present := Std.ExtTreeMap.mem_toList_iff_getElem?_eq_some.mpr found
      simpa using List.all_eq_true.mp all _ present
  | _ => trivial

theorem readEvents_served : exampleMachine.StepsMeet StepServed
    (readEvents ++ [.deliverResponse 0 1 0]) :=
  Machine.stepsMeet_of_checks (fun _ _ => stepServed_of_servesAll)
    (by decide +kernel)

theorem fragments_relayed_stored : ∃ download read,
    Served (fun _ => 0) (fun _ _ => true) (fun _ => Storage.init ['d'] ∅)
      readEvents download read ∧ read.fragmentContent = [7] := by
  have reaches : exampleMachine.Reaches readEvents readNetwork :=
    (Option.some_get _).symm
  have stepped : readNetwork.step (fun _ => 0) (fun _ _ => true)
      (.deliverResponse 0 1 0) = some fetchedNetwork :=
    (Option.some_get _).symm
  have present : fetchedMessage ∈
      pushedSince readNetwork.server fetchedNetwork.server := by
    decide +kernel
  obtain ⟨download, read, served, -, same⟩ := fragments_relayed
    readEvents_served reaches stepped present rfl rfl
  exact ⟨download, read, served,
    (congrArg RspGetFile.fragmentContent same).symm⟩

end Network

end System
end Spaceless
