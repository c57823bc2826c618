import Spaceless.Foundation.Outcome
import Spaceless.StorageNode.Storage
import Spaceless.StorageNode.Transaction

/-!
# The requests of a storage node

The machine runs the four transactions of the node on its singletons, in any
order.  Both fragment requests look up their session, do one operation on the
file of the session, and end the session at its last fragment.
-/

namespace Spaceless
namespace StorageNode

open Logic Foundation Protocol

/-- What the node is asked for. -/
inductive NodeCall
  | putFileSession (request : ReqNodePutFileSession)
  | putFile (request : ReqPutFile)
  | getFileSession (filePath : Text)
  | getFile (request : ReqGetFile)

namespace Storage

section Next

variable (permits : FileMode → Text → Bool)

/-- The singletons after one request. -/
def next (storage : Storage) : NodeCall → Storage
  | .putFileSession request => (putSession request).after storage
  | .putFile request => (putFragment permits request).after storage
  | .getFileSession filePath => (getSession permits filePath).after storage
  | .getFile request => (getFragment permits request).after storage

/-- A node process that starts on the stored files. -/
def nodeMachine (sharingPath : Text) (files : Table Text (List UInt8)) :
    Machine Storage NodeCall where
  start := init sharingPath files
  step := fun storage call => some (storage.next permits call)

end Next

/-- The singletons are as before, or as one request leaves them. -/
def AfterCall (permits : FileMode → Text → Bool) (before after : Storage) :
    Prop :=
  after = before ∨ ∃ call, after = before.next permits call

/-- The shape of the four handlers. -/
theorem leads_call {permits : FileMode → Text → Bool} {α β : Type}
    (storage : Storage) (connId : Int) (package : Package Message)
    (select : Message → Option α) (action : α → Action Fault Storage β)
    (answer : α → β → Message) (call : α → NodeCall)
    (same : ∀ request, (action request).after storage =
      storage.next permits (call request)) :
    Frame.Leads
      (do
        let request ← parse package select
        let value ← Frame.onApp (action request)
        Frame.sendBackProtocol connId (answer request value)
          package.triggerSource)
      (Worker.startFrame storage ()) (AfterCall permits storage) :=
  .bind_check (Or.inl rfl) fun request _ =>
    .bind_onApp (fun _ => Or.inr ⟨call request, same request⟩)
      fun _ _ => .sendBackProtocol (Or.inr ⟨call request, same request⟩)

/-- A package on the worker of the node is one request at most. -/
theorem afterCall_of_receive {permits : FileMode → Text → Bool}
    {messageSize : Message → Nat} {now connId serviceId : Int}
    {package : Package Message} {node later : Worker Storage Unit Message}
    (received : Worker.receive (program permits messageSize) now connId
      serviceId package node = some later) :
    AfterCall permits node.app later.app := by
  have same : AfterCall permits node.app node.app := Or.inl rfl
  refine Worker.receive_post same ?_ ?_ ?_ ?_ received
  · intro _ handler registered
    change findTransaction permits package.command = _ at registered
    unfold findTransaction at registered
    split at registered <;> cases registered
    · exact leads_call node.app connId package _ putSession _
        .putFileSession fun _ => rfl
    · exact leads_call node.app connId package _ (putFragment permits) _
        .putFile fun _ => rfl
    · exact leads_call node.app connId package _ (getSession permits) _
        .getFileSession fun _ => rfl
    · exact leads_call node.app connId package _ (getFragment permits) _
        .getFile fun _ => rfl
  · intro _ factory trans registered
    change findTransaction permits package.command = _ at registered
    unfold findTransaction at registered
    split at registered <;> cases registered
  · intro waiting _ _
    exact Frame.Leads.of_after same
  · intro trans connId errorInfo frame kept
    exact Frame.Leads.of_after kept

/-! ## Fragment requests -/

theorem startPosOf_cases (fragmentIndex : Int) :
    startPosOf fragmentIndex = .ok (fragmentIndex * maxFragmentContentLen) ∨
      startPosOf fragmentIndex = .error .undefined := by
  simp only [startPosOf]
  split
  · exact Or.inl rfl
  · exact Or.inr rfl

/-- The singletons after an operation on the file of the session, which ends
at its last fragment. -/
def finished (storage : Storage) (session : FileSession)
    (fragmentIndex : Int) (files : SharingFileManager) : Storage where
  files := files
  sessions :=
    if fragmentIndex + 1 = session.maxFragment then
      storage.sessions.removeSession session.sessionId
    else storage.sessions

/-- How a fragment request ends that does an operation on the file of its
session at a start position. -/
inductive FragmentRun {α : Type} (storage : Storage)
    (sessionId fragmentIndex : Int)
    (operation : Text → Int → Action Fault SharingFileManager α) :
    Except Fault α × Storage → Prop
  | missing (absent : storage.sessions.findSession sessionId = none) :
      FragmentRun storage sessionId fragmentIndex operation
        (.error ErrorCode.errFileSessionNotExist.fault, storage)
  | outside {session}
      (found : storage.sessions.findSession sessionId = some session)
      (beyond : session.maxFragment ≤ fragmentIndex) :
      FragmentRun storage sessionId fragmentIndex operation
        (.error ErrorCode.errFileSessionInvalidFragment.fault, storage)
  | overflow {session fault}
      (found : storage.sessions.findSession sessionId = some session)
      (inside : fragmentIndex < session.maxFragment)
      (position : startPosOf fragmentIndex = .error fault) :
      FragmentRun storage sessionId fragmentIndex operation
        (.error fault, storage)
  | failed {session startPos fault files}
      (found : storage.sessions.findSession sessionId = some session)
      (inside : fragmentIndex < session.maxFragment)
      (position : startPosOf fragmentIndex = .ok startPos)
      (ran : operation session.filename startPos storage.files =
        (.error fault, files)) :
      FragmentRun storage sessionId fragmentIndex operation
        (.error fault, { storage with files := files })
  | done {session startPos value files}
      (found : storage.sessions.findSession sessionId = some session)
      (inside : fragmentIndex < session.maxFragment)
      (position : startPosOf fragmentIndex = .ok startPos)
      (ran : operation session.filename startPos storage.files =
        (.ok value, files)) :
      FragmentRun storage sessionId fragmentIndex operation
        (.ok value, storage.finished session fragmentIndex files)

theorem removeAtLast_run (storage : Storage) (session : FileSession)
    (fragmentIndex : Int) (files : SharingFileManager) :
    removeAtLast session fragmentIndex { storage with files := files } =
      (.ok (), storage.finished session fragmentIndex files) := by
  simp only [removeAtLast, Action.modify_apply, finished]
  split <;> rfl

/-- The shape of both fragment requests. -/
theorem fragmentRun {α : Type} (storage : Storage)
    (sessionId fragmentIndex : Int)
    (operation : Text → Int → Action Fault SharingFileManager α) :
    FragmentRun storage sessionId fragmentIndex operation
      ((do
        let session ← fragmentSession sessionId fragmentIndex
        let startPos ← Action.check fun _ => startPosOf fragmentIndex
        let value ← onFiles (operation session.filename startPos)
        removeAtLast session fragmentIndex
        pure value : Action Fault Storage α) storage) := by
  simp only [fragmentSession, Action.bind_apply, Action.check_apply,
    FileSessionManager.getSession]
  cases found : storage.sessions.findSession sessionId with
  | none => exact .missing found
  | some session =>
      by_cases beyond : session.maxFragment ≤ fragmentIndex
      · simp only [Action.throwIf, beyond, if_true, Action.throw_apply]
        exact .outside found beyond
      · simp only [Action.throwIf, beyond, if_false, Action.pure_apply]
        cases position : startPosOf fragmentIndex with
        | error fault => exact .overflow found (by omega) position
        | ok startPos =>
            simp only [onFiles, Action.zoom_apply]
            cases ran : operation session.filename startPos storage.files with
            | mk result files =>
                cases result with
                | error fault => exact .failed found (by omega) position ran
                | ok value =>
                    have inside : fragmentIndex < session.maxFragment := by
                      omega
                    simp only [removeAtLast_run]
                    exact .done found inside position ran

/-- A fragment request in the range of its session, whose operation
succeeds. -/
theorem FragmentRun.of_registered {α : Type} {storage : Storage}
    {sessionId fragmentIndex : Int}
    {operation : Text → Int → Action Fault SharingFileManager α}
    {outcome : Except Fault α × Storage}
    (run : FragmentRun storage sessionId fragmentIndex operation outcome)
    {session : FileSession}
    (registered : storage.sessions.findSession sessionId = some session)
    (within : fragmentIndex < session.maxFragment) {startPos : Int}
    (computed : startPosOf fragmentIndex = .ok startPos)
    {value : α} {files : SharingFileManager}
    (succeeded : operation session.filename startPos storage.files =
      (.ok value, files)) :
    outcome = (.ok value, storage.finished session fragmentIndex files) := by
  cases run with
  | missing absent =>
      rw [registered] at absent
      cases absent
  | outside found beyond =>
      rw [registered] at found
      cases found
      omega
  | overflow found inside position =>
      rw [computed] at position
      cases position
  | failed found inside position ran =>
      rw [registered] at found
      rw [computed] at position
      cases found
      cases position
      rw [succeeded] at ran
      cases ran
  | done found inside position ran =>
      rw [registered] at found
      rw [computed] at position
      cases found
      cases position
      rw [succeeded] at ran
      cases ran
      rfl

/-- The operation on the file of the session is all that a fragment request
does to the files. -/
theorem FragmentRun.files {α : Type} {storage : Storage}
    {sessionId fragmentIndex : Int}
    {operation : Text → Int → Action Fault SharingFileManager α}
    {outcome : Except Fault α × Storage}
    (run : FragmentRun storage sessionId fragmentIndex operation outcome) :
    outcome.2.files = storage.files ∨
      ∃ session startPos,
        storage.sessions.findSession sessionId = some session ∧
        operation session.filename startPos storage.files =
          (outcome.1, outcome.2.files) := by
  cases run with
  | missing absent => exact Or.inl rfl
  | outside found beyond => exact Or.inl rfl
  | overflow found inside position => exact Or.inl rfl
  | failed found inside position ran => exact Or.inr ⟨_, _, found, ran⟩
  | done found inside position ran => exact Or.inr ⟨_, _, found, ran⟩

theorem putFragment_run (permits : FileMode → Text → Bool)
    (storage : Storage) (request : ReqPutFile) :
    FragmentRun storage request.sessionId request.fragmentIndex
      (fun filename startPos => SharingFileManager.putFile permits filename
        request.fragmentContent startPos)
      (putFragment permits request storage) := by
  have run := fragmentRun storage request.sessionId request.fragmentIndex
    fun filename startPos => SharingFileManager.putFile permits filename
      request.fragmentContent startPos
  simp only [Action.bind_pure_unit] at run
  exact run

theorem getFragment_run (permits : FileMode → Text → Bool)
    (storage : Storage) (request : ReqGetFile) :
    FragmentRun storage request.sessionId request.fragmentIndex
      (fun filename startPos => SharingFileManager.getFile permits filename
        maxFragmentContentLen.toNat startPos)
      (getFragment permits request storage) :=
  fragmentRun storage request.sessionId request.fragmentIndex _

end Storage

/-! ## Session requests -/

namespace FileSessionManager

/-- Sessions are kept under their own ids, which have been handed out. -/
def Keyed (sessions : FileSessionManager) : Prop :=
  ∀ sessionId session, sessions.findSession sessionId = some session →
    sessionId < sessions.nextId ∧ session.sessionId = sessionId

/-- The manager with a new session under the next id. -/
def register (sessions : FileSessionManager) (session : FileSession) :
    FileSessionManager where
  sessionList := sessions.sessionList.insert sessions.nextId session
  nextId := sessions.nextId + 1

variable {sessions : FileSessionManager}

theorem keyed_init : Keyed init := by
  simp [Keyed, init, findSession]

theorem Keyed.not_found_nextId (keyed : sessions.Keyed) :
    sessions.findSession sessions.nextId = none := by
  cases found : sessions.findSession sessions.nextId with
  | none => rfl
  | some session => exact absurd (keyed _ _ found).1 (Int.lt_irrefl _)

theorem Keyed.register (keyed : sessions.Keyed) {session : FileSession}
    (own : session.sessionId = sessions.nextId) :
    (sessions.register session).Keyed := by
  intro sessionId other found
  simp only [findSession, FileSessionManager.register,
    Table.lookup_insert] at found ⊢
  split at found
  · cases found
    omega
  · have bounds := keyed sessionId other found
    omega

/-- A new session hides no other one. -/
theorem Keyed.findSession_register (keyed : sessions.Keyed)
    {sessionId : Int} {session : FileSession} (other : FileSession)
    (found : sessions.findSession sessionId = some session) :
    (sessions.register other).findSession sessionId = some session := by
  have bounds := keyed sessionId session found
  rw [findSession, FileSessionManager.register,
    Table.lookup_insert_of_ne _ _ (by omega)]
  exact found

theorem findSession_register_self (session : FileSession) :
    (sessions.register session).findSession sessions.nextId =
      some session := by
  simp [findSession, register]

theorem Keyed.removeSession (keyed : sessions.Keyed) (sessionId : Int) :
    (sessions.removeSession sessionId).Keyed := fun other session found =>
  keyed other session (Table.lookup_of_lookup_erase found)

/-- The session found by name is found by its id. -/
theorem Keyed.found_of_findSessionOf (keyed : sessions.Keyed)
    {filename : Text} {session : FileSession}
    (found : sessions.findSessionOf filename = some session) :
    sessions.findSession session.sessionId = some session ∧
      session.filename = filename := by
  obtain ⟨⟨key, entry⟩, first, rfl⟩ := Option.map_eq_some_iff.mp found
  obtain ⟨stored, named⟩ := Table.findIf_eq_some first
  rw [(keyed key entry stored).2]
  exact ⟨stored, eq_of_beq named⟩

/-- No two sessions are of one file. -/
def OnePerFile (sessions : FileSessionManager) : Prop :=
  ∀ first second session other,
    sessions.findSession first = some session →
    sessions.findSession second = some other →
    session.filename = other.filename → first = second

theorem onePerFile_init : OnePerFile init := by
  simp [OnePerFile, init, findSession]

theorem findSessionOf_eq_none_iff {filename : Text} :
    sessions.findSessionOf filename = none ↔
      ∀ sessionId session, sessions.findSession sessionId = some session →
        session.filename ≠ filename := by
  rw [findSessionOf, Option.map_eq_none_iff, Table.findIf_eq_none]
  simp only [findSession, beq_eq_false_iff_ne]

theorem OnePerFile.register (once : sessions.OnePerFile)
    {session : FileSession}
    (unused : sessions.findSessionOf session.filename = none) :
    (sessions.register session).OnePerFile := by
  have free := findSessionOf_eq_none_iff.mp unused
  intro first second here there foundHere foundThere same
  simp only [findSession, FileSessionManager.register,
    Table.lookup_insert] at foundHere foundThere
  split at foundHere <;> split at foundThere
  · rename_i firstNew secondNew
    rw [← firstNew, ← secondNew]
  · cases foundHere
    exact absurd same.symm (free _ _ foundThere)
  · cases foundThere
    exact absurd same (free _ _ foundHere)
  · exact once _ _ _ _ foundHere foundThere same

theorem OnePerFile.removeSession (once : sessions.OnePerFile)
    (sessionId : Int) : (sessions.removeSession sessionId).OnePerFile :=
  fun _ _ _ _ foundHere foundThere =>
    once _ _ _ _ (Table.lookup_of_lookup_erase foundHere)
      (Table.lookup_of_lookup_erase foundThere)

/-- A file is without a session once its only one is removed. -/
theorem OnePerFile.findSessionOf_removeSession (once : sessions.OnePerFile)
    {sessionId : Int} {session : FileSession}
    (found : sessions.findSession sessionId = some session) :
    (sessions.removeSession sessionId).findSessionOf session.filename =
      none := by
  rw [findSessionOf_eq_none_iff]
  intro other there foundThere same
  obtain rfl := once _ _ _ _ found
    (Table.lookup_of_lookup_erase foundThere) same.symm
  rw [findSession, FileSessionManager.removeSession,
    Table.lookup_erase_self] at foundThere
  cases foundThere

theorem Keyed.registerSession (keyed : sessions.Keyed) {filename : Text}
    (unused : sessions.findSessionOf filename = none) :
    registerSession filename sessions =
      (.ok { sessionId := sessions.nextId, filename := filename
             maxFragment := 0 },
        sessions.register
          { sessionId := sessions.nextId, filename := filename
            maxFragment := 0 }) := by
  simp only [FileSessionManager.registerSession, unused,
    keyed.not_found_nextId]
  rfl

/-- Setting the number of fragments of the new session. -/
theorem setSession_register (first session : FileSession)
    (own : session.sessionId = sessions.nextId) :
    (sessions.register first).setSession session =
      sessions.register session := by
  simp only [setSession, register, own]
  congr 1
  apply Std.ExtTreeMap.ext_getElem?
  intro key
  simp only [Table.lookup_insert]
  split <;> rfl

end FileSessionManager

namespace Storage

open FileSessionManager

/-- How a session request ends. -/
inductive SessionRun (storage : Storage) (filename : Text) :
    Except Fault FileSession × Storage → Prop
  | refused (fault : Fault) :
      SessionRun storage filename (.error fault, storage)
  | reused {session}
      (found : storage.sessions.findSession session.sessionId =
        some session)
      (named : session.filename = filename) :
      SessionRun storage filename (.ok session, storage)
  | registered {session}
      (own : session.sessionId = storage.sessions.nextId)
      (named : session.filename = filename)
      (unused : storage.sessions.findSessionOf filename = none) :
      SessionRun storage filename
        (.ok session,
          { storage with sessions := storage.sessions.register session })
  | unopened {session} (fault : Fault)
      (own : session.sessionId = storage.sessions.nextId)
      (named : session.filename = filename)
      (unused : storage.sessions.findSessionOf filename = none) :
      SessionRun storage filename
        (.error fault,
          { storage with sessions := storage.sessions.register session })

theorem SessionRun.keyed {storage : Storage} {filename : Text}
    {outcome : Except Fault FileSession × Storage}
    (run : SessionRun storage filename outcome)
    (keyed : storage.sessions.Keyed) : outcome.2.sessions.Keyed := by
  cases run with
  | refused fault => exact keyed
  | reused found named => exact keyed
  | registered own named unused => exact keyed.register own
  | unopened fault own named unused => exact keyed.register own

theorem SessionRun.onePerFile {storage : Storage} {filename : Text}
    {outcome : Except Fault FileSession × Storage}
    (run : SessionRun storage filename outcome)
    (once : storage.sessions.OnePerFile) :
    outcome.2.sessions.OnePerFile := by
  cases run with
  | refused fault => exact once
  | reused found named => exact once
  | registered own named unused =>
      subst named
      exact once.register unused
  | unopened fault own named unused =>
      subst named
      exact once.register unused

/-- A session request hides no session. -/
theorem SessionRun.keeps {storage : Storage} {filename : Text}
    {outcome : Except Fault FileSession × Storage}
    (run : SessionRun storage filename outcome)
    (keyed : storage.sessions.Keyed) {sessionId : Int} {session : FileSession}
    (found : storage.sessions.findSession sessionId = some session) :
    outcome.2.sessions.findSession sessionId = some session := by
  cases run with
  | refused fault => exact found
  | reused foundHere named => exact found
  | registered own named unused => exact keyed.findSession_register _ found
  | unopened fault own named unused => exact keyed.findSession_register _ found

/-- The only new session is under the next id. -/
theorem SessionRun.origin {storage : Storage} {filename : Text}
    {outcome : Except Fault FileSession × Storage}
    (run : SessionRun storage filename outcome) :
    storage.sessions.nextId ≤ outcome.2.sessions.nextId ∧
      ∀ sessionId session, sessionId < storage.sessions.nextId →
        outcome.2.sessions.findSession sessionId = some session →
        storage.sessions.findSession sessionId = some session := by
  have registered (session : FileSession) (sessionId : Int)
      (used : sessionId < storage.sessions.nextId) :
      (storage.sessions.register session).findSession sessionId =
        storage.sessions.findSession sessionId :=
    Table.lookup_insert_of_ne _ _ (by omega)
  cases run with
  | refused fault => exact ⟨Int.le_refl _, fun _ _ _ found => found⟩
  | reused found named => exact ⟨Int.le_refl _, fun _ _ _ found => found⟩
  | registered own named unused =>
      exact ⟨Int.le_add_one (Int.le_refl _), fun _ _ used found =>
        (registered _ _ used).symm.trans found⟩
  | unopened fault own named unused =>
      exact ⟨Int.le_add_one (Int.le_refl _), fun _ _ used found =>
        (registered _ _ used).symm.trans found⟩

theorem SessionRun.files {storage : Storage} {filename : Text}
    {outcome : Except Fault FileSession × Storage}
    (run : SessionRun storage filename outcome) :
    outcome.2.files = storage.files := by
  cases run <;> rfl

theorem putSession_run {storage : Storage}
    (keyed : storage.sessions.Keyed) (request : ReqNodePutFileSession) :
    SessionRun storage request.filePath (putSession request storage) := by
  simp only [putSession, Action.bind_apply, Action.read_apply]
  cases found : storage.sessions.findSessionOf request.filePath with
  | some session =>
      obtain ⟨byId, named⟩ := keyed.found_of_findSessionOf found
      by_cases same : request.maxFragment = session.maxFragment
      · simp only [Action.throwIf, same, ne_eq, not_true_eq_false, if_false,
          Action.bind_apply, Action.pure_apply]
        exact .reused byId named
      · simp only [Action.throwIf, same, ne_eq, not_false_eq_true, if_true,
          Action.bind_apply, Action.throw_apply]
        exact .refused _
  | none =>
      simp only [onSessions, Action.zoom_apply, registerPutSession,
        Action.bind_apply, keyed.registerSession found, Action.modify_apply,
        Action.pure_apply, setSession_register]
      exact .registered rfl rfl found

theorem getSession_run {permits : FileMode → Text → Bool}
    {storage : Storage} (keyed : storage.sessions.Keyed)
    (filePath : Text) :
    SessionRun storage filePath (getSession permits filePath storage) := by
  simp only [getSession, Action.bind_apply, Action.read_apply]
  cases found : storage.sessions.findSessionOf filePath with
  | some session =>
      obtain ⟨byId, named⟩ := keyed.found_of_findSessionOf found
      exact .reused byId named
  | none =>
      simp only [registerGetSession, onSessions, Action.zoom_apply,
        Action.bind_apply, keyed.registerSession found, Action.check_apply]
      cases fileSize permits (storage.files.getAbsolutePath filePath)
        storage.files with
      | error fault => exact .unopened fault rfl rfl found
      | ok size =>
          simp only [Action.modify_apply, Action.pure_apply,
            setSession_register]
          exact .registered rfl rfl found

end Storage

end StorageNode
end Spaceless
