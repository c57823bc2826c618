import Spaceless.Foundation.Origin
import Spaceless.StorageNode.Reading
import Spaceless.StorageNode.Upload

/-!
# What a package leaves on the storage node

A package is one request of the node at most, by its command and its message.
What it adds to a file are bytes of the fragment that it puts, each at the
position that the index of the fragment says, and zeros below the fragment.
-/

namespace Spaceless
namespace StorageNode

open Logic Foundation Protocol Frame

/-- The request that a package carries. -/
inductive CallOf (package : Package Message) : NodeCall → Prop
  | putFileSession {request}
      (content : package.content = some (.reqNodePutFileSession request)) :
      CallOf package (.putFileSession request)
  | putFile {request}
      (content : package.content = some (.reqPutFile request)) :
      CallOf package (.putFile request)
  | getFileSession {filePath}
      (content : package.content = some (.reqNodeGetFileSession filePath)) :
      CallOf package (.getFileSession filePath)
  | getFile {request}
      (content : package.content = some (.reqGetFile request)) :
      CallOf package (.getFile request)

variable {permits : FileMode → Text → Bool} {storage : Storage}
  {package : Package Message} {messageSize : Message → Nat}
  {now connId serviceId : Int} {node later : NodeWorker}

theorem content_of_parsed {α : Type} {select : Message → Option α}
    {value : α} (parsed : package.parseToProtocol select = .ok value) :
    ∃ message, package.content = some message ∧
      select message = some value := by
  unfold Package.parseToProtocol at parsed
  split at parsed
  · rename_i selected
    cases parsed
    exact Option.bind_eq_some_iff.mp selected
  · cases parsed

theorem parse_reqNodePutFileSession {request : ReqNodePutFileSession}
    (parsed : package.parseToProtocol asReqNodePutFileSession =
      .ok request) :
    package.content = some (.reqNodePutFileSession request) := by
  obtain ⟨message, content, selected⟩ := content_of_parsed parsed
  rw [content]
  unfold asReqNodePutFileSession at selected
  split at selected <;> simp_all

theorem parse_reqPutFile {request : ReqPutFile}
    (parsed : package.parseToProtocol asReqPutFile = .ok request) :
    package.content = some (.reqPutFile request) := by
  obtain ⟨message, content, selected⟩ := content_of_parsed parsed
  rw [content]
  unfold asReqPutFile at selected
  split at selected <;> simp_all

/-- The shape of the four handlers. -/
theorem leads_callOf {α β : Type} (select : Message → Option α)
    (action : α → Action Fault Storage β) (answer : α → β → Message)
    (call : α → NodeCall)
    (carried : ∀ request, package.parseToProtocol select = .ok request →
      CallOf package (call request))
    (same : ∀ request, (action request).after storage =
      storage.next permits (call request)) :
    Frame.Leads
      (do
        let request ← parse package select
        let value ← Frame.onApp (action request)
        Frame.sendBackProtocol connId (answer request value)
          package.triggerSource)
      (Worker.startFrame storage ())
      (fun after => after = storage ∨ ∃ call, CallOf package call ∧
        after = storage.next permits call) := by
  refine .bind_check (Or.inl rfl) fun request parsed => ?_
  have called : (action request).after storage = storage ∨
      ∃ call, CallOf package call ∧
        (action request).after storage = storage.next permits call :=
    Or.inr ⟨call request, carried request parsed, same request⟩
  exact .bind_onApp (fun _ => called) fun _ _ => .sendBackProtocol called

/-- The storage is as before, or after one request that the package
carries. -/
def AfterPackage (permits : FileMode → Text → Bool)
    (package : Package Message) (storage after : Storage) : Prop :=
  after = storage ∨ ∃ call, CallOf package call ∧
    after = storage.next permits call

/-- A package is one request at most, which it carries. -/
theorem callOf_of_receive
    (received : Worker.receive (program permits messageSize) now connId
      serviceId package node = some later) :
    AfterPackage permits package node.app later.app := by
  have same : AfterPackage permits package node.app node.app := Or.inl rfl
  refine Worker.receive_post same ?_ ?_ ?_ ?_ received
  · intro _ handler registered
    change findTransaction permits package.command = _ at registered
    unfold findTransaction at registered
    split at registered <;> cases registered
    · exact leads_callOf _ putSession _ .putFileSession
        (fun _ parsed => .putFileSession
          (parse_reqNodePutFileSession parsed)) fun _ => rfl
    · exact leads_callOf _ (putFragment permits) _ .putFile
        (fun _ parsed => .putFile (parse_reqPutFile parsed)) fun _ => rfl
    · refine leads_callOf _ (getSession permits) _ .getFileSession
        (fun _ parsed => .getFileSession ?_) fun _ => rfl
      obtain ⟨message, content, selected⟩ := content_of_parsed parsed
      rw [content]
      split at selected <;> simp_all
    · refine leads_callOf _ (getFragment permits) _ .getFile
        (fun _ parsed => .getFile ?_) fun _ => rfl
      obtain ⟨message, content, selected⟩ := content_of_parsed parsed
      rw [content]
      split at selected <;> simp_all
  · intro _ factory trans registered
    obtain ⟨handler, same⟩ := onePhase_of_findTransaction registered
    cases same
  · intro waiting _ _
    exact Frame.Leads.of_after (Or.inl rfl)
  · intro trans connId errorInfo frame kept
    exact Frame.Leads.of_after kept

/-! ## Bytes -/

namespace SharingFileManager

variable {manager after : SharingFileManager}

theorem contentOf_store_of_ne {path other : Text} (different : path ≠ other)
    (content : List UInt8) (stream : FileStream) :
    (manager.store path content stream).contentOf other =
      manager.contentOf other := by
  rw [contentOf, store_files, Table.lookup_insert_of_ne _ _ different]
  rfl

/-- Opening a stream adds no byte to a file. -/
theorem byte_of_getFileStream {path other : Text} {stream : FileStream}
    (got : getFileStream permits path manager = (.ok stream, after))
    {position : Nat} {byte : UInt8}
    (present : (after.contentOf other)[position]? = some byte) :
    (manager.contentOf other)[position]? = some byte := by
  rcases getFileStream_cases permits manager path with
    ⟨cached, bound, outcome⟩ | ⟨fresh, _, outcome⟩ | ⟨_, _, outcome⟩ <;>
    rw [outcome] at got <;> cases got
  · exact present
  · rw [openTruncated] at present
    by_cases same : path = other
    · subst same
      rw [contentOf_store] at present
      cases present
    · rwa [contentOf_store_of_ne same] at present

/-- A byte after a put was there before, or is one of those put, or lies in
the gap below them. -/
theorem byte_of_putFile {filename other : Text} {fileContent : List UInt8}
    {startPos : Int} {result : Except Fault Unit}
    (put : putFile permits filename fileContent startPos manager =
      (result, after)) (nonneg : 0 ≤ startPos)
    {position : Nat} {byte : UInt8}
    (present : (after.contentOf other)[position]? = some byte) :
    (manager.contentOf other)[position]? = some byte ∨
      other = manager.getAbsolutePath filename ∧
        ((∃ offset, position = startPos.toNat + offset ∧
            fileContent[offset]? = some byte) ∨
          position < startPos.toNat ∧ byte = 0) := by
  rcases putFile_cases permits manager filename fileContent startPos with
    ⟨_, stream, opened, got, outcome⟩ | ⟨_, outcome⟩ <;>
    rw [outcome] at put <;> cases put
  · rw [write, FileStream.seek_of_nonneg nonneg] at present
    by_cases same : manager.getAbsolutePath filename = other
    · subst same
      rw [contentOf_store] at present
      rcases Content.origin_of_writeAt present with old | new
      · exact Or.inl (byte_of_getFileStream got old)
      · exact Or.inr ⟨rfl, new⟩
    · rw [contentOf_store_of_ne same] at present
      exact Or.inl (byte_of_getFileStream got present)
  · exact Or.inl present

/-- A read adds no byte to a file. -/
theorem byte_of_getFile {filename other : Text} {length : Nat}
    {startPos : Int} {result : Except Fault (List UInt8)}
    (read : getFile permits filename length startPos manager =
      (result, after)) {position : Nat} {byte : UInt8}
    (present : (after.contentOf other)[position]? = some byte) :
    (manager.contentOf other)[position]? = some byte := by
  rcases getFile_cases permits manager filename length startPos with
    ⟨_, stream, opened, got, outcome⟩ | ⟨_, fault, _, outcome⟩ <;>
    rw [outcome] at read <;> cases read
  · apply byte_of_getFileStream got
    rw [skip] at present
    by_cases same : manager.getAbsolutePath filename = other
    · subst same
      rwa [contentOf_store] at present
    · rwa [contentOf_store_of_ne same] at present
  · exact present

end SharingFileManager

/-- The byte of the fragment at the position, or a zero below it. -/
def Lays (request : ReqPutFile) (position : Nat) (byte : UInt8) : Prop :=
  (∃ offset, position =
      (request.fragmentIndex * maxFragmentContentLen).toNat + offset ∧
    request.fragmentContent[offset]? = some byte) ∨
  position < (request.fragmentIndex * maxFragmentContentLen).toNat ∧
    byte = 0

/-- The node puts the fragment of the package to the file of a session. -/
structure Puts (storage : Storage) (package : Package Message)
    (request : ReqPutFile) (session : FileSession) : Prop where
  content : package.content = some (.reqPutFile request)
  found : storage.sessions.findSession request.sessionId = some session
  inside : request.fragmentIndex < session.maxFragment

/-- A byte after a request to put a fragment. -/
theorem byte_of_putFragment {request : ReqPutFile} {path : Text}
    (nonneg : 0 ≤ request.fragmentIndex) {position : Nat} {byte : UInt8}
    (present : (((putFragment permits request).after storage).files.contentOf
      path)[position]? = some byte) :
    (storage.files.contentOf path)[position]? = some byte ∨
      ∃ session,
        storage.sessions.findSession request.sessionId = some session ∧
        request.fragmentIndex < session.maxFragment ∧
        path = storage.files.getAbsolutePath session.filename ∧
        Lays request position byte := by
  have run := Storage.putFragment_run permits storage request
  have start {startPos : Int}
      (computed : startPosOf request.fragmentIndex = .ok startPos) :
      startPos = request.fragmentIndex * maxFragmentContentLen ∧
        0 ≤ startPos := by
    rcases Storage.startPosOf_cases request.fragmentIndex with
      exact_ | undefined
    · cases computed.symm.trans exact_
      exact ⟨rfl, Int.mul_nonneg nonneg (by decide)⟩
    · cases computed.symm.trans undefined
  have written {session : FileSession} {startPos : Int}
      {result : Except Fault Unit} {files : SharingFileManager}
      (found : storage.sessions.findSession request.sessionId = some session)
      (inside : request.fragmentIndex < session.maxFragment)
      (computed : startPosOf request.fragmentIndex = .ok startPos)
      (ran : SharingFileManager.putFile permits session.filename
        request.fragmentContent startPos storage.files = (result, files))
      (present : (files.contentOf path)[position]? = some byte) :
      (storage.files.contentOf path)[position]? = some byte ∨
        ∃ session,
          storage.sessions.findSession request.sessionId = some session ∧
          request.fragmentIndex < session.maxFragment ∧
          path = storage.files.getAbsolutePath session.filename ∧
          Lays request position byte := by
    obtain ⟨rfl, inRange⟩ := start computed
    refine (SharingFileManager.byte_of_putFile ran inRange
      present).imp_right ?_
    rintro ⟨same, laid⟩
    exact ⟨session, found, inside, same, laid⟩
  unfold Action.after at present
  generalize putFragment permits request storage = outcome at run present
  cases run with
  | missing absent => exact Or.inl present
  | outside found beyond => exact Or.inl present
  | overflow found inside position => exact Or.inl present
  | failed found inside computed ran =>
      exact written found inside computed ran present
  | done found inside computed ran =>
      exact written found inside computed ran present

/-- A byte after a package. -/
theorem byte_of_receive
    (keyed : node.app.sessions.Keyed)
    (received : Worker.receive (program permits messageSize) now connId
      serviceId package node = some later)
    (nonneg : ∀ request, package.content = some (.reqPutFile request) →
      0 ≤ request.fragmentIndex)
    {path : Text} {position : Nat} {byte : UInt8}
    (present : (later.app.files.contentOf path)[position]? = some byte) :
    (node.app.files.contentOf path)[position]? = some byte ∨
      ∃ request session, Puts node.app package request session ∧
        path = node.app.files.getAbsolutePath session.filename ∧
        Lays request position byte := by
  rcases callOf_of_receive received with same | ⟨call, carried, same⟩ <;>
    rw [same] at present
  · exact Or.inl present
  · cases carried with
    | @putFileSession request content =>
        rw [Storage.next, Action.after,
          (Storage.putSession_run keyed request).files] at present
        exact Or.inl present
    | @getFileSession filePath content =>
        rw [Storage.next, Action.after,
          (Storage.getSession_run keyed filePath).files] at present
        exact Or.inl present
    | @putFile request content =>
        refine (byte_of_putFragment (nonneg request content)
          present).imp_right ?_
        rintro ⟨session, found, inside, same, laid⟩
        exact ⟨request, session, ⟨content, found, inside⟩, same, laid⟩
    | @getFile request content =>
        have step := @Storage.filesStep_next permits node.app keyed
          (.getFile request)
        generalize (node.app.next permits (.getFile request)).files = files
          at step present
        cases step with
        | same => exact Or.inl present
        | got found ran =>
            exact Or.inl (SharingFileManager.byte_of_getFile ran present)

/-! ## Sessions -/

namespace Storage

/-- The sessions have their own ids, which begin with 1. -/
structure Numbered (storage : Storage) : Prop where
  keyed : storage.sessions.Keyed
  begun : 0 < storage.sessions.nextId
  positive : ∀ sessionId session,
    storage.sessions.findSession sessionId = some session → 0 < sessionId

theorem numbered_init (sharingPath : Text)
    (files : Table Text (List UInt8)) :
    (Storage.init sharingPath files).Numbered where
  keyed := FileSessionManager.keyed_init
  begun := Int.one_pos
  positive := by
    simp [Storage.init, FileSessionManager.init,
      FileSessionManager.findSession]

theorem Numbered.next (numbered : storage.Numbered) (call : NodeCall) :
    (storage.next permits call).Numbered := by
  obtain ⟨grows, origin⟩ := @origin_next permits storage numbered.keyed call
  refine ⟨SharedNode.keyed_next numbered.keyed call,
    Int.lt_of_lt_of_le numbered.begun grows, ?_⟩
  intro sessionId session found
  by_cases used : sessionId < storage.sessions.nextId
  · exact numbered.positive sessionId session (origin _ _ used found)
  · have begun := numbered.begun
    omega

/-- The session that is answered goes by its id from then on. -/
theorem names_of_putSession {request : ReqNodePutFileSession}
    {session : FileSession} (keyed : storage.sessions.Keyed)
    (answered : (putSession request storage).1 = .ok session) :
    (storage.next permits (.putFileSession request)).Names session ∧
      session.filename = request.filePath := by
  have run := putSession_run keyed request
  have nextKeyed := @SharedNode.keyed_next permits storage keyed
    (.putFileSession request)
  change ((putSession request storage).2).sessions.Keyed at nextKeyed
  change ((putSession request storage).2).Names session ∧ _
  generalize putSession request storage = outcome at run answered nextKeyed
  have of_found {after : Storage} (keyed : after.sessions.Keyed)
      (found : after.sessions.findSession session.sessionId =
        some session) : after.Names session :=
    ⟨keyed, (keyed _ _ found).1, fun other same =>
      Option.some.inj (same.symm.trans found)⟩
  cases run with
  | refused fault => cases answered
  | reused found named =>
      cases answered
      exact ⟨of_found nextKeyed found, named⟩
  | registered own named unused =>
      cases answered
      refine ⟨of_found nextKeyed ?_, named⟩
      rw [own]
      exact FileSessionManager.findSession_register_self _
  | unopened fault own named unused => cases answered

end Storage

theorem numbered_of_receive (numbered : node.app.Numbered)
    (received : Worker.receive (program permits messageSize) now connId
      serviceId package node = some later) : later.app.Numbered := by
  rcases callOf_of_receive received with same | ⟨call, -, same⟩ <;> rw [same]
  · exact numbered
  · exact numbered.next call

theorem names_of_receive {session : FileSession}
    (names : node.app.Names session)
    (received : Worker.receive (program permits messageSize) now connId
      serviceId package node = some later) : later.app.Names session := by
  rcases callOf_of_receive received with same | ⟨call, -, same⟩ <;> rw [same]
  · exact names
  · exact names.next call

theorem sharingPath_of_receive (keyed : node.app.sessions.Keyed)
    (received : Worker.receive (program permits messageSize) now connId
      serviceId package node = some later) :
    later.app.files.sharingPath = node.app.files.sharingPath := by
  rcases callOf_of_receive received with same | ⟨call, -, same⟩ <;> rw [same]
  exact Storage.sharingPath_next keyed call

/-! ## What the node answers to a session request -/

/-- The response holds the session that the request asks for. -/
structure OpensSession (node : NodeWorker) (package : Package Message)
    (response : RspNodePutFileSession) : Prop where
  starts : node.waitingTransaction package = none
  command : package.command = 1029
  noError : response.error = none
  content : ∃ request session,
    package.content = some (.reqNodePutFileSession request) ∧
    (putSession request node.app).1 = .ok session ∧
    response.sessionId = session.sessionId

/-- The send is no request, and holds a session only when the package asks
for it. -/
structure AnswersOpening (node : NodeWorker) (package : Package Message)
    (send : Send Message) : Prop where
  trigger : send.triggerPackageId = package.selfPackageId
  noRequest : ∀ request, send.message ≠ .reqPutFile request
  opens : ∀ response, send.message = .rspNodePutFileSession response →
    OpensSession node package response

theorem onPutFileSession_opens
    (starts : node.waitingTransaction package = none)
    (command : package.command = 1029) (connId : Int) :
    SendsOnly (AnswersOpening node package)
      ((onPutFileSession connId package).after
        (Worker.startFrame node.app ())) := by
  suffices ensures : Action.Ensures (onPutFileSession connId package)
      (Worker.startFrame node.app ())
      (fun _ => SendsOnly (AnswersOpening node package))
      (fun _ => SendsOnly (AnswersOpening node package)) from
    Action.ensures_after.mp ensures
  have none_ (app : Storage) : SendsOnly (AnswersOpening node package)
      { app := app, self := (), sends := [], waits := [] } := by
    simp [SendsOnly]
  simp only [onPutFileSession, parse, Action.ensures_bind,
    Action.ensures_check, ensures_onApp, ensures_sendBackProtocol,
    Worker.startFrame]
  refine ⟨fun request parsed => ?_, fun _ _ => none_ _⟩
  refine (Action.ensures_self _ _).mono ?_ fun _ _ _ => none_ _
  intro session later got send present
  rw [List.mem_singleton.mp present]
  refine ⟨rfl, fun _ => Message.noConfusion, fun response same => ?_⟩
  cases same
  exact ⟨starts, command, rfl, request, session,
    parse_reqNodePutFileSession parsed, congrArg Prod.fst got, rfl⟩

/-- A registered handler answers to its package. -/
theorem onePhase_opens {handler : Int → Int → Package Message →
      Handler Storage Unit Message Unit}
    (starts : node.waitingTransaction package = none)
    (registered : findTransaction permits package.command =
      some (.onePhase handler)) :
    SendsOnly (AnswersOpening node package)
      ((handler now connId package).after
        (Worker.startFrame node.app ())) := by
  have opens {handler : Handler Storage Unit Message Unit}
      (emits : Emits (AnswersOpening node package) handler) :
      SendsOnly (AnswersOpening node package)
        (handler.after (Worker.startFrame node.app ())) :=
    emits _ (by simp [SendsOnly, Worker.startFrame])
  have other {message : Message} {connId : Int}
      (plain : ∀ request, message ≠ .reqPutFile request)
      (silent : ∀ response, message ≠ .rspNodePutFileSession response) :
      AnswersOpening node package
        { connId := connId, message := message, bindTransId := 0
          triggerPackageId := package.selfPackageId
          triggerCmd := package.command, serviceId := 0 } :=
    ⟨rfl, plain, fun response same => absurd same (silent response)⟩
  unfold findTransaction at registered
  split at registered <;> rename_i command <;> cases registered
  · exact onPutFileSession_opens starts command connId
  · exact opens (.bind (.check _) fun _ => .bind (.onApp _) fun _ =>
      .sendBackProtocol (other (by simp) (by simp)))
  · exact opens (.bind (.check _) fun _ => .bind (.onApp _) fun _ =>
      .sendBackProtocol (other (by simp) (by simp)))
  · exact opens (.bind (.check _) fun _ => .bind (.onApp _) fun _ =>
      .sendBackProtocol (other (by simp) (by simp)))

/-- What a received package makes the node push. -/
theorem receive_opens
    (received : Worker.receive (program permits messageSize) now connId
      serviceId package node = some later) :
    Worker.Pushes (AnswersOpening node package) node later := by
  refine Worker.receive_pushes ?_ ?_ ?_ ?_ ?_ received
  · intro starts handler registered
    exact onePhase_opens starts registered
  · intro _ factory registered
    obtain ⟨handler, same⟩ := onePhase_of_findTransaction registered
    cases same
  · intro waiting _ _ send present
    cases present
  · intro failed errorInfo app send present
    cases present
  · intro errorInfo
    exact ⟨rfl, by simp [program, protocol], by simp [program, protocol]⟩

/-- The session of a response goes by its id from then on. -/
theorem OpensSession.names {response : RspNodePutFileSession}
    (opens : OpensSession node package response)
    (keyed : node.app.sessions.Keyed)
    (received : Worker.receive (program permits messageSize) now connId
      serviceId package node = some later) :
    ∃ request session,
      package.content = some (.reqNodePutFileSession request) ∧
      later.app.Names session ∧ session.sessionId = response.sessionId ∧
      session.filename = request.filePath := by
  obtain ⟨request, session, content, answered, sameId⟩ := opens.content
  obtain ⟨names, named⟩ :=
    @Storage.names_of_putSession permits node.app request session keyed
      answered
  refine ⟨request, session, content, ?_, sameId.symm, named⟩
  have registered : (program permits messageSize).findTransaction
      package.command = some (.onePhase fun _ => onPutFileSession) := by
    change findTransaction permits package.command = _
    rw [opens.command]
    rfl
  have parsed : package.parseToProtocol asReqNodePutFileSession =
      .ok request := by
    simp [Package.parseToProtocol, content, asReqNodePutFileSession]
  have left : ((onPutFileSession connId package).after
      (Worker.startFrame node.app ())).app =
        (putSession request).after node.app := by
    simp only [onPutFileSession, parse, Action.after, Action.bind_apply,
      Action.check_apply, parsed, onApp_apply, Worker.startFrame]
    split <;> rename_i ran <;> obtain ⟨-, rfl⟩ := Prod.mk.inj ran <;> rfl
  have same : (putSession request).after node.app = later.app :=
    Worker.onePhase_post opens.starts registered (.of_after left.symm)
      received
  rw [← same]
  exact names

end StorageNode
end Spaceless
