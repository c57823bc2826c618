import Spaceless.ResourceServer.Fragment
import Spaceless.System.Network

/-!
# No hole in an upload

A put session counts a fragment as put before the storage node is asked, and
nothing takes the count back.  So the fragments below `next_fragment` are on
the node only when every PutFile transaction that fails does so after its
fragment was accepted.  A response without an error needs no assumption: it
is traced back to the node that accepted the fragment.
-/

namespace Spaceless
namespace System

open Logic Foundation ResourceServer
open Protocol (Message ReqPutFile)
open StorageNode (FileMode Storage)

namespace Network

variable {messageSize : Message → Nat}
  {permits : FileMode → Text → Bool} {storages : Int → Storage}

/-- A PutFile transaction of the session is in progress. -/
def InProgress (network : Network) (sessionId : Int) : Prop :=
  ∃ (transId : Int) (trans : MultiplyPhaseTransaction TransSelf),
    network.server.transList[transId]? = some trans ∧
      trans.self = .putFile sessionId

/-- When no PutFile transaction of a session is in progress, every fragment
below its `next_fragment` was accepted. -/
def NoHole (network : Network) : Prop :=
  ∀ sessionId session,
    network.server.app.sessions.findPutSession sessionId = some session →
    ¬network.InProgress sessionId →
    ∀ index, 0 ≤ index → index < session.nextFragment →
      { sessionId := sessionId, index := index } ∈ network.accepted

/-! ## The condition on a step -/

/-- The transaction waits for the node to put the fragment. -/
structure Awaits (network : Network) (transId : Int) (fragment : Fragment) :
    Prop where
  waiting : ∃ trans : MultiplyPhaseTransaction TransSelf,
    network.server.transList[transId]? = some trans ∧
      trans.self = .putFile fragment.sessionId
  upload : network.uploads[transId]? = some fragment

/-- Every fragment that the transaction waits for was accepted. -/
def Settled (network : Network) (transId : Int) : Prop :=
  ∀ fragment, network.Awaits transId fragment → fragment ∈ network.accepted

/-- A request that advances a session finds its group and its node. -/
def FindsNode (network : Network) (connId : Int)
    (package : Package Message) : Prop :=
  network.server.waitingTransaction package = none →
  package.command = 1031 →
  ∀ request user session,
    Advances network.server.app connId package request user session →
    ∃ group node,
      network.server.app.groups.findGroup session.groupId = some group ∧
      network.server.app.nodes.findNode group.nodeId = some node

/-- A package that is taken as the answer to a transaction comes after its
fragment was accepted. -/
def AnswersSettled (network : Network) (connId serviceId : Int)
    (package : Package Message) : Prop :=
  ∀ waiting, network.server.waitingTransaction package = some waiting →
    waiting.fits connId serviceId package.command = true →
    network.Settled waiting.id

/-- The content of a `RspPutFile`; a node that fails answers with a
`RspError`. -/
def reportsFragment (package : Package Message) : Bool :=
  match package.content with
  | some (.rspPutFile _) => true
  | _ => false

/-- What must hold of a step: a request that advances a session finds its
node, and an error response, a foreign answer or a timeout comes only after
the fragment was accepted. -/
def StepSettled (network : Network) : Event → Prop
  | .client _ connId package =>
      network.FindsNode connId package ∧
        network.AnswersSettled connId 0 package
  | .deliverResponse _ connId index =>
      ∀ answer, network.responses[index]? = some answer →
        network.FindsNode connId answer.package ∧
          (reportsFragment answer.package = false →
            network.AnswersSettled connId answer.serviceId answer.package)
  | .expire now timerId =>
      ∀ timer, network.server.dueTimer now timerId = some timer →
        network.Settled timer.transId
  | _ => True

/-! ## The invariant -/

/-- A message belongs to the fragment of the transaction that its package id
is bound to. -/
def Labelled (network : Network) (packageId : Int)
    (fragment : Option Fragment) : Prop :=
  packageId < network.server.packages.nextId ∧
    ∀ (transId : Int) (upload : Fragment),
      network.server.bindList[packageId]? = some transId →
      network.uploads[transId]? = some upload → fragment = some upload

/-- What holds in every state of a run whose steps meet the condition. -/
structure Traced (messageSize : Message → Nat) (network : Network) :
    Prop where
  reachable : (serverMachine messageSize).Reachable network.server
  ids : network.server.TransIds
  bindings : network.server.Bindings
  covered : ∀ sessionId session,
    network.server.app.sessions.findPutSession sessionId = some session →
    ∀ index, 0 ≤ index → index < session.nextFragment →
      { sessionId := sessionId, index := index } ∈ network.accepted ∨
        ∃ transId, network.Awaits transId
          { sessionId := sessionId, index := index }
  requests : ∀ asked ∈ network.requests, asked.connected = true →
    network.Labelled asked.package.selfPackageId asked.fragment
  responses : ∀ answer ∈ network.responses,
    network.Labelled answer.package.triggerPackageId answer.fragment
  reported : ∀ answer ∈ network.responses,
    reportsFragment answer.package = true →
    ∀ fragment, answer.fragment = some fragment →
      fragment ∈ network.accepted

theorem Traced.noHole {network : Network}
    (traced : Traced messageSize network) : network.NoHole := by
  intro sessionId session found idle index nonneg below
  rcases traced.covered sessionId session found index nonneg below with
    accepted | ⟨transId, awaits⟩
  · exact accepted
  · obtain ⟨trans, registered, self⟩ := awaits.waiting
    exact absurd ⟨transId, trans, registered, self⟩ idle

theorem traced_init (messageSize : Message → Nat)
    (storages : Int → Storage) :
    Traced messageSize (init storages) where
  reachable := ⟨[], Machine.reaches_nil⟩
  ids := by
    intro transId trans found
    simp [init, Worker.init] at found
  bindings := by
    intro packageId transId found
    simp [init, Worker.init] at found
  covered := by
    intro sessionId session found
    simp [init, Worker.init, Server.init, FileSessionManager.init,
      FileSessionManager.findPutSession] at found
  requests := by simp [init]
  responses := by simp [init]
  reported := by simp [init]

/-! ## A step of the server -/

/-- The condition on a step of the worker of the server. -/
def EventSettled (network : Network) :
    Worker.Event Message ServerCall → Prop
  | .receive _ connId serviceId package =>
      network.FindsNode connId package ∧
        network.AnswersSettled connId serviceId package
  | .internal _ => True
  | .expire now timerId =>
      ∀ timer, network.server.dueTimer now timerId = some timer →
        network.Settled timer.transId

/-- What a step of the worker makes of the network. -/
structure ServerStepped (messageSize : Message → Nat) (network : Network)
    (event : Worker.Event Message ServerCall) (later : Network) : Prop where
  stepped : Worker.step (program messageSize) network.server event =
    some later.server
  uploads_self : later.uploads[network.server.nextTransId]? =
    eventFragment event
  uploads_other : ∀ transId : Int, network.server.nextTransId ≠ transId →
    later.uploads[transId]? = network.uploads[transId]?
  accepted : later.accepted = network.accepted
  responses : later.responses = network.responses
  requests : ∀ asked ∈ later.requests, asked ∈ network.requests ∨
    ∃ out ∈ pushedSince network.server later.server,
      asked = request (eventFragment event) out

theorem serverStepped_of_serverStep {network later : Network}
    {event : Worker.Event Message ServerCall}
    (stepped : serverStep messageSize network event = some later) :
    ServerStepped messageSize network event later := by
  obtain ⟨server, ran, rfl⟩ := Option.map_eq_some_iff.mp stepped
  refine ⟨ran, ?_, ?_, rfl, rfl, ?_⟩
  · dsimp only
    split <;> rename_i fragment <;> rw [fragment]
    · exact Table.lookup_insert_self _ _ _
    · exact Table.lookup_erase_self _ _
  · intro transId different
    dsimp only
    split
    · exact Table.lookup_insert_of_ne _ _ different
    · exact Table.lookup_erase_of_ne _ different
  · intro asked present
    rcases List.mem_append.mp present with old | new
    · exact Or.inl old
    · obtain ⟨out, pushed, rfl⟩ := List.mem_map.mp new
      exact Or.inr ⟨out, List.mem_of_mem_filter pushed, rfl⟩

section ServerStep

variable {network later : Network}
  {event : Worker.Event Message ServerCall}

/-- A transaction that waits for a fragment goes on waiting, unless the step
is one that comes after the fragment was accepted. -/
theorem Traced.awaits_kept (traced : Traced messageSize network)
    (settled : network.EventSettled event)
    (step : ServerStepped messageSize network event later)
    {transId : Int} {fragment : Fragment}
    (awaits : network.Awaits transId fragment) :
    fragment ∈ network.accepted ∨ later.Awaits transId fragment := by
  obtain ⟨trans, registered, self⟩ := awaits.waiting
  have known := (traced.ids transId trans registered).2
  have started : network.server.nextTransId ≠ transId := by
    omega
  have upload := (step.uploads_other transId started).trans awaits.upload
  suffices same : fragment ∈ network.accepted ∨
      later.server.transList[transId]? =
        network.server.transList[transId]? from
    same.imp_right fun kept =>
      ⟨⟨trans, kept.trans registered, self⟩, upload⟩
  have ran := step.stepped
  cases event with
  | internal call =>
      have called : Worker.callInternal (program messageSize) call
          network.server = some later.server := ran
      rw [Worker.eq_of_callInternal called]
      exact Or.inr rfl
  | receive now connId serviceId package =>
      by_cases answered : ∃ waiting,
          network.server.waitingTransaction package = some waiting ∧
            waiting.fits connId serviceId package.command = true ∧
            waiting.id = transId
      · obtain ⟨waiting, answers, fits, rfl⟩ := answered
        exact Or.inl (settled.2 waiting answers fits fragment awaits)
      · refine Or.inr (Worker.receive_transList_of_ne started ?_ ran)
        intro waiting answers fits own
        exact answered ⟨waiting, answers, fits, own⟩
  | expire now timerId =>
      by_cases fired : ∃ timer,
          network.server.dueTimer now timerId = some timer ∧
            timer.transId = transId
      · obtain ⟨timer, due, rfl⟩ := fired
        exact Or.inl (settled timer due fragment awaits)
      · refine Or.inr (Worker.expire_transList_of_ne ?_ ran)
        intro timer due waiting found own
        have key := (traced.ids _ _ found).1
        exact fired ⟨timer, due, by omega⟩

/-- A request that advances its session starts a transaction that waits for
its fragment. -/
theorem Traced.advanced_awaits (traced : Traced messageSize network)
    {now connId serviceId : Int} {package : Package Message}
    (settled : network.EventSettled (.receive now connId serviceId package))
    (step : ServerStepped messageSize network
      (.receive now connId serviceId package) later)
    (starts : network.server.waitingTransaction package = none)
    (command : package.command = 1031)
    {request : ReqPutFile} {user : User} {session moved : PutFileSession}
    (advances : Advances network.server.app connId package request user
      session)
    (found : later.server.app.sessions.findPutSession request.sessionId =
      some moved)
    (next : session.nextFragment < moved.nextFragment) :
    later.Awaits network.server.nextTransId
      { sessionId := request.sessionId, index := request.fragmentIndex } := by
  obtain ⟨group, node, listed, known⟩ :=
    settled.1 starts command request user session advances
  have key := ((keyed_of_reachable traced.reachable).bounds _ _
    (FileSessionManager.findPutSession_eq_some.mp advances.found)).2.2
  change session.sessionId = request.sessionId at key
  have upload := step.uploads_self
  simp only [eventFragment, fragmentOf, command, advances.content, if_true]
    at upload
  have started := started_putFile starts command step.stepped
  cases started with
  | waits ran app entry transId self =>
      rw [program_onInit, onInit_of_putFile rfl] at ran
      have run := (PutFileTrans.onInit_run _ connId package _ _).of_ok ran
      cases run with
      | forwarded other _ _ =>
          obtain ⟨rfl, rfl⟩ := advances.unique other
          exact ⟨⟨_, entry, self.trans (congrArg TransSelf.putFile key)⟩,
            upload⟩
  | ends ran self app entry =>
      rw [program_onInit, onInit_of_putFile rfl] at ran
      have run := (PutFileTrans.onInit_run _ connId package _ _).of_error ran
      cases run with
      | refused =>
          rw [program_onError, onError_app_of_putFile self] at app
          rw [app] at found
          cases advances.found.symm.trans found
          omega
      | lost other missing =>
          obtain ⟨rfl, rfl⟩ := advances.unique other
          rw [missing group listed] at known
          cases known

/-- A fragment that was covered before the step is covered after it. -/
theorem Traced.covered_kept (traced : Traced messageSize network)
    (settled : network.EventSettled event)
    (step : ServerStepped messageSize network event later)
    {sessionId : Int} {session : PutFileSession}
    (found : network.server.app.sessions.findPutSession sessionId =
      some session)
    {index : Int} (nonneg : 0 ≤ index)
    (below : index < session.nextFragment) :
    { sessionId := sessionId, index := index } ∈ network.accepted ∨
      ∃ transId, later.Awaits transId
        { sessionId := sessionId, index := index } := by
  rcases traced.covered sessionId session found index nonneg below with
    accepted | ⟨transId, awaits⟩
  · exact Or.inl accepted
  · exact (traced.awaits_kept settled step awaits).imp_right
      fun kept => ⟨transId, kept⟩

theorem Traced.covered_step (traced : Traced messageSize network)
    (settled : network.EventSettled event)
    (step : ServerStepped messageSize network event later)
    {sessionId : Int} {session : PutFileSession}
    (found : later.server.app.sessions.findPutSession sessionId =
      some session)
    {index : Int} (nonneg : 0 ≤ index)
    (below : index < session.nextFragment) :
    { sessionId := sessionId, index := index } ∈ network.accepted ∨
      ∃ transId, later.Awaits transId
        { sessionId := sessionId, index := index } := by
  obtain ⟨owner, forest⟩ := (Sound.of_reachable traced.reachable).running
  have keyed := keyed_of_reachable traced.reachable
  have from_ := SessionsFrom.of_changed forest.owned keyed
    (step_changed step.stepped)
  have kept {old : PutFileSession}
      (older : network.server.app.sessions.sessionList[sessionId]? =
        some (.put old)) (below : index < old.nextFragment) :=
    traced.covered_kept settled step
      (FileSessionManager.findPutSession_eq_some.mpr older) nonneg below
  generalize asks : eventSource network.server event = source at from_
  generalize same : Session.put session = entry at from_
  rcases from_.origin sessionId entry
    (same ▸ FileSessionManager.findPutSession_eq_some.mp found) with
    ⟨old, older, continues⟩ | ⟨-, opens⟩
  · cases continues with
    | same =>
        subst same
        exact kept older below
    | putNode nodeSessionId =>
        cases same
        exact kept older below
    | getNode nodeSessionId => cases same
    | @fragment connId package user old request command content login stored
        own next =>
        cases same
        obtain ⟨now, otherId, serviceId, asked, rfl, rfl, rfl⟩ :=
          receive_of_eventSource asks
        have starts := (packageSource_eq_request asks).1
        -- the session has one id, under which both lookups find it
        have key := (keyed.bounds _ _ older).2.2
        have requestKey := (keyed.bounds _ _
          (FileSessionManager.findPutSession_eq_some.mp stored)).2.2
        obtain rfl : sessionId = request.sessionId :=
          key.symm.trans requestKey
        by_cases last : index < old.nextFragment
        · exact kept older last
        · have advances : Advances network.server.app otherId asked request
              user old := ⟨content, login, stored, own, next⟩
          have awaits := traced.advanced_awaits settled step starts command
            advances found (by dsimp only; omega)
          have here : index = request.fragmentIndex := by
            dsimp only at below
            omega
          exact Or.inr ⟨_, here ▸ awaits⟩
  · cases opens with
    | get => cases same
    | put =>
        cases same
        exact absurd below (by simp [PutFileSession.init]; omega)

/-! ### Labels -/

theorem Traced.labelled_kept (traced : Traced messageSize network)
    (step : ServerStepped messageSize network event later)
    {packageId : Int} {fragment : Option Fragment}
    (labelled : network.Labelled packageId fragment) :
    later.Labelled packageId fragment := by
  have pushes := step_mayPush step.stepped
  refine ⟨Int.lt_of_lt_of_le labelled.1 pushes.counted, ?_⟩
  intro transId upload bound recorded
  rcases pushes.bound packageId transId bound with old | ⟨range, -⟩
  · have known := (traced.bindings packageId transId old).2
    rw [step.uploads_other transId (by omega)] at recorded
    exact labelled.2 transId upload old recorded
  · exact absurd labelled.1 (by omega)

/-- A send of the server is bound to the transaction that it starts, whose
fragment is that of the request. -/
theorem labelled_pushed (bindings : network.server.Bindings)
    (step : ServerStepped messageSize network event later)
    {out : OutMessage Message}
    (present : out ∈ pushedSince network.server later.server) :
    later.Labelled out.package.selfPackageId
      (request (eventFragment event) out).fragment := by
  obtain ⟨send, permitted, carries⟩ :=
    carries_of_mem_pushedSince (step_mayPush step.stepped) present
  refine ⟨carries.fresh.2, ?_⟩
  intro transId upload bound recorded
  rcases carries.bound transId bound with old | ⟨rfl, valid⟩
  · have known := (bindings _ transId old).1
    exact absurd carries.fresh.1 (by omega)
  · rcases permitted with
      reply | ⟨now, connId, serviceId, package, rfl, starts, may⟩
    · exact absurd reply.unbound valid
    · obtain ⟨own, fragments⟩ := may.bound valid
      rw [own, step.uploads_self] at recorded
      have command : package.command = 1031 := by
        by_contra other
        simp [eventFragment, fragmentOf, other] at recorded
      obtain ⟨asked, message⟩ := fragments command
      simp only [request, carries.content, message]
      exact recorded

theorem Traced.bindings_step (traced : Traced messageSize network)
    (step : ServerStepped messageSize network event later) :
    later.server.Bindings := by
  refine traced.bindings.pushes (step_mayPush step.stepped)
    (Worker.step_nextTransId_le step.stepped) ?_
  rintro send (reply | ⟨now, connId, serviceId, package, rfl, starts, may⟩)
    valid
  · exact absurd reply.unbound valid
  · rw [(may.bound valid).1]
    rcases Worker.receive_nextTransId step.stepped with
      ⟨-, counted⟩ | ⟨other, -⟩
    · omega
    · exact absurd starts other

/-- A step of the worker of the server keeps the invariant. -/
theorem Traced.serverStep (traced : Traced messageSize network)
    (settled : network.EventSettled event)
    (stepped : network.serverStep messageSize event = some later) :
    Traced messageSize later := by
  have step := serverStepped_of_serverStep stepped
  have ran : (serverMachine messageSize).step network.server
      (.worker event) = some later.server := step.stepped
  exact
    { reachable := traced.reachable.step ran
      ids := traced.ids.step step.stepped
      bindings := traced.bindings_step step
      covered := by
        intro sessionId session found index nonneg below
        rw [step.accepted]
        exact traced.covered_step settled step found nonneg below
      requests := by
        intro asked present connected
        rcases step.requests asked present with old | ⟨out, pushed, rfl⟩
        · exact traced.labelled_kept step
            (traced.requests asked old connected)
        · exact labelled_pushed traced.bindings step pushed
      responses := by
        intro answer present
        rw [step.responses] at present
        exact traced.labelled_kept step (traced.responses answer present)
      reported := by
        intro answer present
        rw [step.responses] at present
        rw [step.accepted]
        exact traced.reported answer present }

end ServerStep

/-! ## The other steps -/

section OtherSteps

variable {network later : Network}

/-- A step that leaves the server alone keeps the invariant when its new
responses are traced. -/
theorem Traced.sameServer (traced : Traced messageSize network)
    (server : later.server = network.server)
    (uploads : later.uploads = network.uploads)
    (accepted : ∀ fragment ∈ network.accepted, fragment ∈ later.accepted)
    (requests : ∀ asked ∈ later.requests, asked ∈ network.requests)
    (responses : ∀ answer ∈ later.responses,
      answer ∈ network.responses ∨
        network.Labelled answer.package.triggerPackageId answer.fragment ∧
          (reportsFragment answer.package = true →
            ∀ fragment, answer.fragment = some fragment →
              fragment ∈ later.accepted)) :
    Traced messageSize later := by
  obtain ⟨laterServer, nodes, laterRequests, laterResponses, laterUploads,
    laterAccepted⟩ := later
  dsimp only at server uploads
  subst server uploads
  refine ⟨traced.reachable, traced.ids, traced.bindings, ?_, ?_, ?_, ?_⟩
  · intro sessionId session found index nonneg below
    rcases traced.covered sessionId session found index nonneg below with
      put | ⟨transId, waiting, upload⟩
    · exact Or.inl (accepted _ put)
    · exact Or.inr ⟨transId, waiting, upload⟩
  · exact fun asked present => traced.requests asked (requests asked present)
  · intro answer present
    rcases responses answer present with old | ⟨labelled, -⟩
    · exact traced.responses answer old
    · exact labelled
  · intro answer present reports fragment same
    rcases responses answer present with old | ⟨-, reported⟩
    · exact accepted _ (traced.reported answer old reports fragment same)
    · exact reported reports fragment same

/-- The responses of a node are traced to what it accepted. -/
theorem Traced.nodeStep (traced : Traced messageSize network)
    {now connId : Int} {asked : InFlight}
    (labelled : asked.connected = true →
      network.Labelled asked.package.selfPackageId asked.fragment)
    (stepped : network.nodeStep messageSize permits now connId asked =
      some later) : Traced messageSize later := by
  obtain ⟨after, received, rfl⟩ := Option.map_eq_some_iff.mp stepped
  refine traced.sameServer rfl rfl ?_ (fun _ present => present) ?_
  · intro fragment present
    dsimp only
    split
    · exact List.mem_append_right _ present
    · exact present
  · intro answer present
    refine (List.mem_append.mp present).imp_right fun new => ?_
    split at new
    · rename_i connected
      obtain ⟨out, pushed, rfl⟩ := List.mem_map.mp new
      obtain ⟨send, answers, carries⟩ := carries_of_mem_pushedSince
        (StorageNode.receive_answers received) pushed
      constructor
      · simp only [response, carries.trigger, answers.trigger]
        exact labelled connected
      · intro reports fragment same
        have accepts : StorageNode.accepts permits
            (network.nodes asked.serviceId).app asked.package = true := by
          simp only [reportsFragment, response, carries.content] at reports
          split at reports
          · rename_i message
            exact answers.accepted _ (Option.some.inj message)
          · cases reports
        change asked.fragment = some fragment at same
        simp [accepts, same]
    · cases new

theorem traced_restartServer (traced : Traced messageSize network)
    (rest : Int → UninitializedUser) :
    Traced messageSize (network.restartServer rest) where
  reachable := by
    have ran : (serverMachine messageSize).step network.server
        (.restart rest) = some (network.restartServer rest).server := rfl
    exact traced.reachable.step ran
  ids := by
    intro transId trans found
    simp [restartServer, Worker.init] at found
  bindings := by
    intro packageId transId found
    simp [restartServer, Worker.init] at found
  covered := by
    intro sessionId session found
    have none_ := FileSessionManager.findPutSession_eq_some.mp found
    change (network.server.app.restart rest).sessions.sessionList[sessionId]?
      = _ at none_
    rw [restart_sessions] at none_
    simp [FileSessionManager.init] at none_
  requests := by
    intro asked present connected
    obtain ⟨old, -, rfl⟩ := List.mem_map.mp present
    cases connected
  responses := by simp [restartServer]
  reported := by simp [restartServer]

end OtherSteps

/-! ## Every run -/

/-- A step that meets the condition keeps the invariant. -/
theorem Traced.step {network later : Network} {event : Event}
    (traced : Traced messageSize network)
    (settled : network.StepSettled event)
    (stepped : network.step messageSize permits event = some later) :
    Traced messageSize later := by
  cases event with
  | client now connId package =>
      have settled : network.EventSettled (.receive now connId 0 package) :=
        settled
      exact traced.serverStep settled stepped
  | internal call =>
      have trivially : network.EventSettled (.internal call) := trivial
      exact traced.serverStep trivially stepped
  | expire now timerId =>
      have settled : network.EventSettled (.expire now timerId) := settled
      exact traced.serverStep settled stepped
  | restartServer rest =>
      cases stepped
      exact traced_restartServer traced rest
  | deliverRequest now connId index =>
      obtain ⟨asked, present, stepped⟩ := Option.bind_eq_some_iff.mp stepped
      have erased : Traced messageSize
          { network with requests := network.requests.eraseIdx index } :=
        traced.sameServer rfl rfl (fun _ present => present)
          (fun _ present => List.mem_of_mem_eraseIdx present)
          fun _ present => Or.inl present
      exact erased.nodeStep (traced.requests asked
        (List.mem_of_getElem? present)) stepped
  | deliverResponse now connId index =>
      obtain ⟨answer, present, stepped⟩ := Option.bind_eq_some_iff.mp stepped
      have erased : Traced messageSize
          { network with responses := network.responses.eraseIdx index } :=
        traced.sameServer rfl rfl (fun _ present => present)
          (fun _ present => present)
          fun _ present => Or.inl (List.mem_of_mem_eraseIdx present)
      have inFlight := List.mem_of_getElem? present
      obtain ⟨findsNode, settled⟩ := settled answer present
      have answered : network.AnswersSettled connId answer.serviceId
          answer.package := by
        cases reports : reportsFragment answer.package with
        | false => exact settled reports
        | true =>
            -- the response was sent by a node that accepted the fragment
            intro waiting answers fits fragment awaits
            obtain ⟨transId, bound, -, own, -⟩ := traced.ids.waiting answers
            have same := (traced.responses answer inFlight).2 transId
              fragment bound (own ▸ awaits.upload)
            exact traced.reported answer inFlight reports fragment same
      have settled : ({ network with
          responses := network.responses.eraseIdx index } :
            Network).EventSettled
          (.receive now connId answer.serviceId answer.package) := by
        refine ⟨findsNode, fun waiting answers fits fragment awaits => ?_⟩
        exact answered waiting answers fits fragment
          ⟨awaits.waiting, awaits.upload⟩
      exact erased.serverStep settled stepped
  | loseRequest index =>
      cases stepped
      exact traced.sameServer rfl rfl (fun _ present => present)
        (fun _ present => List.mem_of_mem_eraseIdx present)
        fun _ present => Or.inl present
  | loseResponse index =>
      cases stepped
      exact traced.sameServer rfl rfl (fun _ present => present)
        (fun _ present => present)
        fun _ present => Or.inl (List.mem_of_mem_eraseIdx present)
  | restartNode serviceId =>
      cases stepped
      exact traced.sameServer rfl rfl (fun _ present => present)
        (fun _ present => present) fun _ present => Or.inl present

/-- In a run whose steps meet the condition no state has a hole. -/
theorem noHole_throughout {events : List Event}
    (meets : (machine messageSize permits storages).StepsMeet StepSettled
      events) :
    (machine messageSize permits storages).Throughout NoHole events := by
  have traced := Machine.StepsMeet.throughout
    (traced_init messageSize storages)
    (fun _ _ _ traced settled stepped => traced.step settled stepped) meets
  exact fun first second split state reaches =>
    (traced first second split state reaches).noHole

/-! ## An upload of one fragment -/

/-- One server with an empty node on service 2. -/
def exampleMachine : Machine Network Event :=
  machine (fun _ => 0) (fun _ _ => true) fun _ => Storage.init ['d'] ∅

def clientPackage (message : Message) : Package Message where
  command := message.command
  selfPackageId := 1
  triggerPackageId := 0
  content := some message

/-- The root user opens a session for `f` with two fragments, and the node
registers it. -/
def askedEvents : List Event :=
  [.internal (.registerRootUser ['r'] ['p']),
    .internal (.registerNode ['n'] 1 2),
    .internal (.registerRootGroup 1 ['g']),
    .client 0 5 (clientPackage (.reqLoginUser 1 ['p'])),
    .client 0 5 (clientPackage (.reqPutFileSession
      { groupId := 1, filePath := ['f'], maxFragment := 2 })),
    .deliverRequest 0 1 0]

def openedEvents : List Event := askedEvents ++ [.deliverResponse 0 1 0]

/-- The first fragment. -/
def fragmentPackage : Package Message :=
  clientPackage (.reqPutFile
    { sessionId := 1, fragmentIndex := 0, fragmentContent := [7] })

def sentEvents : List Event := openedEvents ++ [.client 0 5 fragmentPackage]

def acceptedEvents : List Event := sentEvents ++ [.deliverRequest 0 1 0]

/-- The fragment is accepted and answered. -/
def putEvents : List Event := acceptedEvents ++ [.deliverResponse 0 1 0]

/-- The message to the node is lost, and the wait times out. -/
def lostEvents : List Event :=
  sentEvents ++ [.loseRequest 0, .expire 1000000000 2]

def lostNetwork : Network :=
  (exampleMachine.run exampleMachine.start lostEvents).get
    (by decide +kernel)

def askedNetwork : Network :=
  (exampleMachine.run exampleMachine.start askedEvents).get
    (by decide +kernel)

def openedNetwork : Network :=
  (exampleMachine.run exampleMachine.start openedEvents).get
    (by decide +kernel)

def acceptedNetwork : Network :=
  (exampleMachine.run exampleMachine.start acceptedEvents).get
    (by decide +kernel)

def putNetwork : Network :=
  (exampleMachine.run exampleMachine.start putEvents).get
    (by decide +kernel)

theorem settled_of_plain {network : Network} {now connId : Int}
    {package : Package Message} (command : package.command ≠ 1031)
    (fresh : package.triggerPackageId = 0) :
    network.StepSettled (.client now connId package) := by
  refine ⟨fun _ same => absurd same command, fun waiting answers => ?_⟩
  simp [Worker.waitingTransaction, fresh] at answers

theorem askedEvents_settled :
    exampleMachine.StepsMeet StepSettled askedEvents := by
  refine Machine.StepsMeet.of_forall fun event present network => ?_
  simp only [askedEvents, List.mem_cons, List.not_mem_nil, or_false]
    at present
  rcases present with rfl | rfl | rfl | rfl | rfl | rfl
  · trivial
  · trivial
  · trivial
  · exact settled_of_plain (by decide) rfl
  · exact settled_of_plain (by decide) rfl
  · trivial

/-- The response to the session request answers no PutFile transaction. -/
theorem openedEvents_settled :
    exampleMachine.StepsMeet StepSettled openedEvents := by
  refine askedEvents_settled.snoc fun network reaches => ?_
  obtain rfl : askedNetwork = network :=
    Machine.Reaches.unique (Option.some_get _).symm reaches
  intro answer present
  have command : askedNetwork.responses[0]?.map (·.package.command) =
      some 1030 := by
    decide +kernel
  rw [present] at command
  refine ⟨fun _ same => ?_, fun _ waiting answers fits fragment awaits => ?_⟩
  · rw [Option.map_some, same] at command
    exact absurd command (by decide)
  · have upload := awaits.upload
    have nothing : askedNetwork.uploads = ∅ := by
      decide +kernel
    rw [nothing] at upload
    simp at upload

/-- The fragment advances session 1, which finds its group and its node. -/
theorem sentEvents_settled :
    exampleMachine.StepsMeet StepSettled sentEvents := by
  refine openedEvents_settled.snoc fun network reaches => ?_
  obtain rfl : openedNetwork = network :=
    Machine.Reaches.unique (Option.some_get _).symm reaches
  refine ⟨?_, fun waiting answers => ?_⟩
  · intro _ _ request user session advances
    cases advances.content
    have groupId : (openedNetwork.server.app.sessions.findPutSession 1).map
        (·.groupId) = some 1 := by
      decide +kernel
    rw [advances.found, Option.map_some] at groupId
    rw [Option.some.inj groupId]
    exact ⟨_, _, (Option.some_get (by decide +kernel)).symm,
      (Option.some_get (by decide +kernel)).symm⟩
  · simp [Worker.waitingTransaction, fragmentPackage, clientPackage]
      at answers

/-- The response to the fragment reports it. -/
theorem putEvents_settled :
    exampleMachine.StepsMeet StepSettled putEvents := by
  have accepted : exampleMachine.StepsMeet StepSettled acceptedEvents :=
    sentEvents_settled.snoc fun _ _ => trivial
  refine accepted.snoc fun network reaches => ?_
  obtain rfl : acceptedNetwork = network :=
    Machine.Reaches.unique (Option.some_get _).symm reaches
  intro answer present
  have reported : acceptedNetwork.responses[0]?.map (fun answer =>
      (answer.package.command, reportsFragment answer.package)) =
        some (1032, true) := by
    decide +kernel
  rw [present, Option.map_some] at reported
  obtain ⟨command, reports⟩ := Prod.mk.inj (Option.some.inj reported)
  refine ⟨fun _ same => ?_, fun silent => ?_⟩
  · rw [command] at same
    exact absurd same (by decide)
  · rw [reports] at silent
    cases silent

/-- The fragment that the session counts is on the node. -/
theorem noHole_putNetwork : putNetwork.NoHole :=
  noHole_throughout putEvents_settled putEvents [] (List.append_nil _).symm
    putNetwork (Option.some_get _).symm

/-- After a lost fragment the session counts it as put. -/
theorem not_noHole_always :
    ¬∀ events, exampleMachine.Throughout NoHole events := by
  intro always
  have noHole := always lostEvents lostEvents []
    (List.append_nil _).symm lostNetwork (Option.some_get _).symm
  have idle : lostNetwork.server.transList = ∅ := by
    decide +kernel
  have accepted := noHole 1
    ((lostNetwork.server.app.sessions.findPutSession 1).get
      (by decide +kernel))
    (Option.some_get _).symm
    (by
      rintro ⟨transId, trans, registered, -⟩
      rw [idle] at registered
      simp at registered)
    0 (by decide) (by decide +kernel)
  have nothing : lostNetwork.accepted = [] := by
    decide +kernel
  rw [nothing] at accepted
  cases accepted

end Network

end System
end Spaceless
