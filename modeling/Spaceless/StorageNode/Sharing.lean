import Spaceless.StorageNode.Call
import Spaceless.StorageNode.Stream

/-!
# Transfers that share a session

The node keeps one session for a file name and ends it when anyone requests
its last fragment.  The transfers of the clients are recorded beside the
node: each was answered with a session and a number of fragments.
-/

namespace Spaceless
namespace StorageNode

open Logic Foundation Protocol

/-- A transfer that the node answered, and whether it has requested its last
fragment. -/
structure Transfer where
  sessionId : Int
  maxFragment : Int
  ended : Bool
  deriving DecidableEq

namespace Transfer

/-- The transfer that a session request opens. -/
def opened (session : FileSession) : Transfer where
  sessionId := session.sessionId
  maxFragment := session.maxFragment
  ended := false

/-- The transfer after a fragment request of its own. -/
def ask (transfer : Transfer) (sessionId fragmentIndex : Int) : Transfer :=
  if transfer.sessionId = sessionId ∧
      fragmentIndex + 1 = transfer.maxFragment then
    { transfer with ended := true }
  else transfer

end Transfer

/-- A request to the node, and the number of the transfer that makes a
fragment request, if it belongs to one. -/
structure NodeEvent where
  call : NodeCall
  transfer : Option Nat

/-- The node with the transfers it has answered. -/
structure SharedNode where
  storage : Storage
  transfers : List Transfer
  deriving DecidableEq

namespace SharedNode

variable (permits : FileMode → Text → Bool)

/-- Record the transfer of a session that was answered. -/
def answered (node : SharedNode) :
    Except Fault FileSession × Storage → SharedNode
  | (.ok session, later) =>
      { storage := later
        transfers := node.transfers ++ [Transfer.opened session] }
  | (.error _, later) => { node with storage := later }

/-- Record a fragment request of a transfer. -/
def asked (node : SharedNode) (transfer : Option Nat)
    (sessionId fragmentIndex : Int) (later : Storage) : SharedNode where
  storage := later
  transfers :=
    match transfer with
    | none => node.transfers
    | some number =>
        node.transfers.modify number (·.ask sessionId fragmentIndex)

@[simp] theorem storage_asked (node : SharedNode) (transfer : Option Nat)
    (sessionId fragmentIndex : Int) (later : Storage) :
    (node.asked transfer sessionId fragmentIndex later).storage = later := rfl

/-- The node after one request. -/
def next (node : SharedNode) (event : NodeEvent) : SharedNode :=
  match event.call with
  | .putFileSession request => node.answered (putSession request node.storage)
  | .getFileSession filePath =>
      node.answered (getSession permits filePath node.storage)
  | .putFile request =>
      node.asked event.transfer request.sessionId request.fragmentIndex
        ((putFragment permits request).after node.storage)
  | .getFile request =>
      node.asked event.transfer request.sessionId request.fragmentIndex
        ((getFragment permits request).after node.storage)

/-- The requests of any number of clients to one node. -/
def machine (sharingPath : Text) (files : Table Text (List UInt8)) :
    Machine SharedNode NodeEvent where
  start := { storage := Storage.init sharingPath files, transfers := [] }
  step := fun node event => some (node.next permits event)

/-- The recorded transfers have no effect on the node. -/
theorem storage_next (node : SharedNode) (event : NodeEvent) :
    (node.next permits event).storage =
      node.storage.next permits event.call := by
  cases call : event.call with
  | putFileSession request =>
      simp only [next, call, Storage.next, Action.after]
      unfold answered
      split <;> rename_i outcome <;> rw [outcome]
  | getFileSession filePath =>
      simp only [next, call, Storage.next, Action.after]
      unfold answered
      split <;> rename_i outcome <;> rw [outcome]
  | putFile request => simp only [next, call, Storage.next, asked]
  | getFile request => simp only [next, call, Storage.next, asked]

/-! ## What a transfer relies on -/

/-- The session of the transfer is registered with its number of
fragments. -/
def Held (sessions : FileSessionManager) (transfer : Transfer) : Prop :=
  ∃ session, sessions.findSession transfer.sessionId = some session ∧
    session.maxFragment = transfer.maxFragment

/-- The session of the transfer is registered, so that no request of it in
the range is refused for want of a session. -/
structure Served (storage : Storage) (transfer : Transfer) : Prop where
  held : Held storage.sessions transfer
  put : ∀ request : ReqPutFile, request.sessionId = transfer.sessionId →
    request.fragmentIndex < transfer.maxFragment →
    (putFragment permits request storage).1 ≠
      .error ErrorCode.errFileSessionNotExist.fault
  get : ∀ request : ReqGetFile, request.sessionId = transfer.sessionId →
    request.fragmentIndex < transfer.maxFragment →
    (getFragment permits request storage).1 ≠
      .error ErrorCode.errFileSessionNotExist.fault

/-- Every transfer that has not requested its last fragment is served. -/
def AllServed (node : SharedNode) : Prop :=
  ∀ (number : Nat) (transfer : Transfer),
    node.transfers[number]? = some transfer → transfer.ended = false →
    Served permits node.storage transfer

variable {permits}

/-- A fragment request finds its session when the transfer is held. -/
theorem not_refused_of_held {α : Type} {storage : Storage}
    {transfer : Transfer} {sessionId fragmentIndex : Int}
    {operation : Text → Int → Action Fault SharingFileManager α}
    {outcome : Except Fault α × Storage}
    (run : Storage.FragmentRun storage sessionId fragmentIndex operation
      outcome)
    (own : sessionId = transfer.sessionId)
    (held : Held storage.sessions transfer)
    (inside : fragmentIndex < transfer.maxFragment)
    (other : ∀ filename startPos fault files,
      operation filename startPos storage.files = (.error fault, files) →
      fault ≠ ErrorCode.errFileSessionNotExist.fault) :
    outcome.1 ≠ .error ErrorCode.errFileSessionNotExist.fault := by
  obtain ⟨session, registered, count⟩ := held
  subst own
  cases run with
  | missing absent =>
      rw [registered] at absent
      cases absent
  | outside found beyond =>
      rw [registered] at found
      cases found
      omega
  | overflow found _ position =>
      rcases Storage.startPosOf_cases fragmentIndex with same | same <;>
        rw [same] at position <;> cases position
      simp [ErrorCode.fault]
  | failed found _ position ran =>
      intro same
      exact other _ _ _ _ ran (Except.error.inj same)
  | done => simp

theorem served_iff_held {storage : Storage} {transfer : Transfer} :
    Served permits storage transfer ↔ Held storage.sessions transfer := by
  constructor
  · exact Served.held
  · intro held
    refine ⟨held, fun request own inside => ?_,
      fun request own inside => ?_⟩
    · refine not_refused_of_held (Storage.putFragment_run permits storage
        request) own held inside ?_
      intro filename startPos fault files failed
      rcases SharingFileManager.putFile_cases permits storage.files filename
        request.fragmentContent startPos with
        ⟨_, _, _, _, outcome⟩ | ⟨_, outcome⟩ <;>
        rw [outcome] at failed <;> cases failed
      simp [ErrorCode.fault]
    · refine not_refused_of_held (Storage.getFragment_run permits storage
        request) own held inside ?_
      intro filename startPos fault files failed
      rcases SharingFileManager.getFile_cases permits storage.files filename
        maxFragmentContentLen.toNat startPos with
        ⟨_, _, _, _, outcome⟩ | ⟨_, _, known, outcome⟩ <;>
        rw [outcome] at failed <;> cases failed
      rcases known with rfl | rfl <;>
        simp [ErrorCode.fault, ErrorCode.value]

/-! ## The end of a session -/

/-- The request is for the last fragment of the session, at a position that
the code can compute, on a file for which the operation succeeds. -/
def Ends (storage : Storage) (sessionId fragmentIndex : Int)
    (succeeds : Text → Prop) : Prop :=
  ∃ session, storage.sessions.findSession sessionId = some session ∧
    fragmentIndex + 1 = session.maxFragment ∧
    (∃ startPos, startPosOf fragmentIndex = .ok startPos) ∧
    succeeds (storage.files.getAbsolutePath session.filename)

variable (permits) in
/-- The request ends the session. -/
def EndsSession (storage : Storage) : NodeCall → Int → Prop
  | .putFile request, sessionId =>
      request.sessionId = sessionId ∧
        Ends storage sessionId request.fragmentIndex
          (storage.files.Opens permits)
  | .getFile request, sessionId =>
      request.sessionId = sessionId ∧
        Ends storage sessionId request.fragmentIndex fun path =>
          storage.files.fileExists path = true ∧
            storage.files.Opens permits path
  | _, _ => False

/-- A fragment request ends its session, or leaves the sessions alone. -/
theorem sessions_fragmentRun {α : Type} {storage : Storage}
    {sessionId fragmentIndex : Int}
    {operation : Text → Int → Action Fault SharingFileManager α}
    {outcome : Except Fault α × Storage} {succeeds : Text → Prop}
    (keyed : storage.sessions.Keyed)
    (run : Storage.FragmentRun storage sessionId fragmentIndex operation
      outcome)
    (decides : ∀ filename startPos,
      succeeds (storage.files.getAbsolutePath filename) ∧
        (∃ value files, operation filename startPos storage.files =
          (.ok value, files)) ∨
      ¬succeeds (storage.files.getAbsolutePath filename) ∧
        ∃ fault files, operation filename startPos storage.files =
          (.error fault, files)) :
    Ends storage sessionId fragmentIndex succeeds ∧
        outcome.2.sessions = storage.sessions.removeSession sessionId ∨
      ¬Ends storage sessionId fragmentIndex succeeds ∧
        outcome.2.sessions = storage.sessions := by
  have same {session other : FileSession}
      (found : storage.sessions.findSession sessionId = some session)
      (foundOther : storage.sessions.findSession sessionId = some other) :
      session = other :=
    Option.some.inj (found.symm.trans foundOther)
  cases run with
  | missing absent =>
      refine Or.inr ⟨?_, rfl⟩
      rintro ⟨session, found, -⟩
      rw [absent] at found
      cases found
  | outside found beyond =>
      refine Or.inr ⟨?_, rfl⟩
      rintro ⟨session, foundHere, last, -⟩
      obtain rfl := same found foundHere
      omega
  | overflow found inside position =>
      refine Or.inr ⟨?_, rfl⟩
      rintro ⟨session, -, -, ⟨startPos, computed⟩, -⟩
      rw [position] at computed
      cases computed
  | @failed session startPos fault files found inside position ran =>
      refine Or.inr ⟨?_, rfl⟩
      rintro ⟨session, foundHere, -, -, succeeded⟩
      obtain rfl := same found foundHere
      rcases decides session.filename startPos with
        ⟨_, value, files, succeededRun⟩ | ⟨fails, -⟩
      · rw [ran] at succeededRun
        cases succeededRun
      · exact fails succeeded
  | @done session startPos value files found inside position ran =>
      by_cases last : fragmentIndex + 1 = session.maxFragment
      · refine Or.inl ⟨⟨session, found, last, ⟨startPos, position⟩, ?_⟩, ?_⟩
        · rcases decides session.filename startPos with
            ⟨succeeds, -⟩ | ⟨_, fault, files, failed⟩
          · exact succeeds
          · rw [ran] at failed
            cases failed
        · simp only [Storage.finished, if_pos last]
          rw [(keyed sessionId session found).2]
      · refine Or.inr ⟨?_, ?_⟩
        · rintro ⟨session, foundHere, lastHere, -⟩
          obtain rfl := same found foundHere
          exact last lastHere
        · simp only [Storage.finished, if_neg last]

theorem sessions_putFragment {storage : Storage}
    (keyed : storage.sessions.Keyed) (request : ReqPutFile) :
    Ends storage request.sessionId request.fragmentIndex
        (storage.files.Opens permits) ∧
        ((putFragment permits request).after storage).sessions =
          storage.sessions.removeSession request.sessionId ∨
      ¬Ends storage request.sessionId request.fragmentIndex
        (storage.files.Opens permits) ∧
        ((putFragment permits request).after storage).sessions =
          storage.sessions := by
  refine sessions_fragmentRun keyed
    (Storage.putFragment_run permits storage request) ?_
  intro filename startPos
  exact (SharingFileManager.putFile_cases permits storage.files filename
    request.fragmentContent startPos).imp
      (fun ⟨opens, _, _, _, outcome⟩ => ⟨opens, _, _, outcome⟩)
      fun ⟨shut, outcome⟩ => ⟨shut, _, _, outcome⟩

theorem sessions_getFragment {storage : Storage}
    (keyed : storage.sessions.Keyed) (request : ReqGetFile) :
    Ends storage request.sessionId request.fragmentIndex (fun path =>
        storage.files.fileExists path = true ∧
          storage.files.Opens permits path) ∧
        ((getFragment permits request).after storage).sessions =
          storage.sessions.removeSession request.sessionId ∨
      ¬Ends storage request.sessionId request.fragmentIndex (fun path =>
        storage.files.fileExists path = true ∧
          storage.files.Opens permits path) ∧
        ((getFragment permits request).after storage).sessions =
          storage.sessions := by
  refine sessions_fragmentRun keyed
    (Storage.getFragment_run permits storage request) ?_
  intro filename startPos
  exact (SharingFileManager.getFile_cases permits storage.files filename
    maxFragmentContentLen.toNat startPos).imp
      (fun ⟨opens, _, _, _, outcome⟩ => ⟨opens, _, _, outcome⟩)
      fun ⟨shut, _, _, outcome⟩ => ⟨shut, _, _, outcome⟩

/-- What a request does to the sessions: a session request runs, one session
is removed, or they stay as they are. -/
theorem sessions_next {storage : Storage} (keyed : storage.sessions.Keyed)
    (call : NodeCall) :
    (∃ filename outcome, Storage.SessionRun storage filename outcome ∧
        storage.next permits call = outcome.2) ∨
      (∃ sessionId, (storage.next permits call).sessions =
        storage.sessions.removeSession sessionId) ∨
      (storage.next permits call).sessions = storage.sessions := by
  cases call with
  | putFileSession request =>
      exact .inl ⟨_, _, Storage.putSession_run keyed request, rfl⟩
  | getFileSession filePath =>
      exact .inl ⟨_, _, Storage.getSession_run keyed filePath, rfl⟩
  | putFile request =>
      rcases sessions_putFragment keyed request with ⟨_, same⟩ | ⟨_, same⟩
      · exact .inr (.inl ⟨_, same⟩)
      · exact .inr (.inr same)
  | getFile request =>
      rcases sessions_getFragment keyed request with ⟨_, same⟩ | ⟨_, same⟩
      · exact .inr (.inl ⟨_, same⟩)
      · exact .inr (.inr same)

/-- A request to the node keeps the sessions under their ids. -/
theorem keyed_next {storage : Storage} (keyed : storage.sessions.Keyed)
    (call : NodeCall) : (storage.next permits call).sessions.Keyed := by
  rcases sessions_next keyed call with
    ⟨filename, outcome, run, ran⟩ | ⟨sessionId, removed⟩ | same
  · rw [ran]
    exact run.keyed keyed
  · rw [removed]
    exact keyed.removeSession sessionId
  · rw [same]
    exact keyed

theorem onePerFile_next {storage : Storage}
    (keyed : storage.sessions.Keyed) (once : storage.sessions.OnePerFile)
    (call : NodeCall) : (storage.next permits call).sessions.OnePerFile := by
  rcases sessions_next keyed call with
    ⟨filename, outcome, run, ran⟩ | ⟨sessionId, removed⟩ | same
  · rw [ran]
    exact run.onePerFile once
  · rw [removed]
    exact once.removeSession sessionId
  · rw [same]
    exact once

/-! ## One request -/

/-- Every transfer that has not requested its last fragment holds its
session. -/
def AllHeld (node : SharedNode) : Prop :=
  ∀ (number : Nat) (transfer : Transfer),
    node.transfers[number]? = some transfer → transfer.ended = false →
    Held node.storage.sessions transfer

theorem allServed_iff_allHeld {node : SharedNode} :
    node.AllServed permits ↔ node.AllHeld :=
  forall_congr' fun _ => forall_congr' fun _ => forall_congr' fun _ =>
    forall_congr' fun _ => served_iff_held

variable (permits) in
/-- The request ends no session that another transfer still needs. -/
def EndsNoOther (node : SharedNode) (event : NodeEvent) : Prop :=
  ∀ sessionId, EndsSession permits node.storage event.call sessionId →
    ∀ (number : Nat) (transfer : Transfer),
      node.transfers[number]? = some transfer → transfer.ended = false →
      transfer.sessionId = sessionId → event.transfer = some number

/-- A session request opens a transfer that holds its session and leaves the
others alone. -/
theorem allHeld_answered {node : SharedNode} {filename : Text}
    {outcome : Except Fault FileSession × Storage}
    (keyed : node.storage.sessions.Keyed)
    (run : Storage.SessionRun node.storage filename outcome)
    (held : node.AllHeld) : (node.answered outcome).AllHeld := by
  have kept {transfer : Transfer}
      (holds : Held node.storage.sessions transfer) :
      Held outcome.2.sessions transfer := by
    obtain ⟨session, found, count⟩ := holds
    exact ⟨session, run.keeps keyed found, count⟩
  have opened {session : FileSession} (ok : outcome.1 = .ok session) :
      Held outcome.2.sessions (.opened session) := by
    cases run with
    | refused fault => cases ok
    | reused found named =>
        cases ok
        exact ⟨session, found, rfl⟩
    | registered own named unused =>
        cases ok
        refine ⟨session, ?_, rfl⟩
        simp only [Transfer.opened, own]
        exact FileSessionManager.findSession_register_self session
    | unopened fault own named unused => cases ok
  intro number transfer listed unfinished
  unfold answered at listed ⊢
  split at listed
  · rw [List.getElem?_append] at listed
    split at listed
    · exact kept (held number transfer listed unfinished)
    · obtain rfl := List.mem_singleton.mp (List.mem_of_getElem? listed)
      exact opened rfl
  · exact kept (held number transfer listed unfinished)

/-- A fragment request keeps the sessions of all transfers exactly when it
ends none that another one still needs. -/
theorem allHeld_asked {node : SharedNode} {later : Storage}
    {sessionId fragmentIndex : Int} {transfer : Option Nat}
    {succeeds : Text → Prop}
    (sessions : Ends node.storage sessionId fragmentIndex succeeds ∧
        later.sessions = node.storage.sessions.removeSession sessionId ∨
      ¬Ends node.storage sessionId fragmentIndex succeeds ∧
        later.sessions = node.storage.sessions)
    (held : node.AllHeld) :
    (node.asked transfer sessionId fragmentIndex later).AllHeld ↔
      (Ends node.storage sessionId fragmentIndex succeeds →
        ∀ (number : Nat) (other : Transfer),
          node.transfers[number]? = some other → other.ended = false →
          other.sessionId = sessionId → transfer = some number) := by
  have untouched {number : Nat} (different : transfer ≠ some number) :
      (node.asked transfer sessionId fragmentIndex later).transfers[number]? =
        node.transfers[number]? := by
    cases transfer with
    | none => rfl
    | some asking =>
        have apart : asking ≠ number := fun same => different (same ▸ rfl)
        simp [asked, apart]
  constructor
  · intro heldAfter ends number other listed unfinished own
    by_contra different
    obtain ⟨session, found, -⟩ := heldAfter number other
      (by rw [untouched different, listed]) unfinished
    rcases sessions with ⟨_, removed⟩ | ⟨kept, _⟩
    · rw [storage_asked, removed, own] at found
      simp [FileSessionManager.findSession,
        FileSessionManager.removeSession] at found
    · exact kept ends
  · intro needed number other listed unfinished
    -- the transfer itself is as before, since it has not asked for its last
    have before : node.transfers[number]? = some other ∧
        (transfer = some number → ¬(other.sessionId = sessionId ∧
          fragmentIndex + 1 = other.maxFragment)) := by
      by_cases asking : transfer = some number
      · subst asking
        simp only [asked, List.getElem?_modify, if_true,
          Option.map_eq_map, Option.map_eq_some_iff] at listed
        obtain ⟨old, oldListed, rfl⟩ := listed
        unfold Transfer.ask at unfinished ⊢
        split at unfinished
        · cases unfinished
        · rename_i notLast
          rw [if_neg notLast]
          exact ⟨oldListed, fun _ => notLast⟩
      · rw [untouched asking] at listed
        exact ⟨listed, fun same => absurd same asking⟩
    obtain ⟨session, found, count⟩ :=
      held number other before.1 unfinished
    refine ⟨session, ?_, count⟩
    rcases sessions with ⟨ends, removed⟩ | ⟨_, same⟩
    · rw [storage_asked, removed, FileSessionManager.findSession,
        FileSessionManager.removeSession, Table.lookup_erase_of_ne]
      · exact found
      · intro own
        have asking := needed ends number other before.1 unfinished own.symm
        obtain ⟨ended, foundHere, last, -⟩ := ends
        rw [own, found] at foundHere
        cases foundHere
        exact before.2 asking ⟨own.symm, by omega⟩
    · rw [storage_asked, same]
      exact found

/-- A request to the node keeps the sessions of all transfers exactly when
it ends none that another one still needs. -/
theorem allHeld_next {node : SharedNode}
    (keyed : node.storage.sessions.Keyed) (held : node.AllHeld)
    (event : NodeEvent) :
    (node.next permits event).AllHeld ↔ node.EndsNoOther permits event := by
  obtain ⟨call, transfer⟩ := event
  cases call with
  | putFileSession request =>
      exact iff_of_true (allHeld_answered keyed
        (Storage.putSession_run keyed request) held) fun _ ends => ends.elim
  | getFileSession filePath =>
      exact iff_of_true (allHeld_answered keyed
        (Storage.getSession_run keyed filePath) held) fun _ ends => ends.elim
  | putFile request =>
      refine (allHeld_asked (sessions_putFragment keyed request) held).trans ?_
      constructor
      · rintro needed sessionId ⟨rfl, ends⟩
        exact needed ends
      · intro needed ends
        exact needed request.sessionId ⟨rfl, ends⟩
  | getFile request =>
      refine (allHeld_asked (sessions_getFragment keyed request) held).trans ?_
      constructor
      · rintro needed sessionId ⟨rfl, ends⟩
        exact needed ends
      · intro needed ends
        exact needed request.sessionId ⟨rfl, ends⟩

/-! ## Runs -/

/-- In a run of the node every transfer that has not requested its last
fragment is served, in every state passed through, exactly when no request
of the run ends a session that another such transfer still needs. -/
theorem allServed_throughout_iff
    (permits : FileMode → Text → Bool) (sharingPath : Text)
    (files : Table Text (List UInt8)) (events : List NodeEvent) :
    (machine permits sharingPath files).Throughout (AllServed permits)
        events ↔
      (machine permits sharingPath files).StepsMeet (EndsNoOther permits)
        events := by
  refine Machine.throughout_iff_stepsMeet
    (fun node => node.storage.sessions.Keyed)
    (fun node event => ⟨node.next permits event, rfl⟩)
    FileSessionManager.keyed_init ?_ ?_ ?_ events
  · rintro node event next keyed stepped
    cases stepped
    rw [storage_next]
    exact keyed_next keyed event.call
  · intro number transfer listed
    simp [machine] at listed
  · rintro node event next keyed served stepped
    cases stepped
    rw [allServed_iff_allHeld]
    exact allHeld_next keyed (allServed_iff_allHeld.mp served) event

/-- Two downloads of a stored file of one byte, up to the last fragment of
the first. -/
def twoDownloads : List NodeEvent :=
  [{ call := .getFileSession ['f'], transfer := none },
    { call := .getFileSession ['f'], transfer := none },
    { call := .getFile { sessionId := 1, fragmentIndex := 0 }
      transfer := some 0 }]

/-- The second download finds its session gone. -/
theorem not_allServed_always :
    ¬∀ events node,
      (machine (fun _ _ => true) ['d']
        ((∅ : Table Text (List UInt8)).insert ['d', '/', 'f'] [7])).Reaches
          events node → node.AllServed fun _ _ => true := by
  intro always
  have served := always twoDownloads _ rfl 1
    { sessionId := 1, maxFragment := 1, ended := false } (by decide +kernel)
    rfl
  exact served.get { sessionId := 1, fragmentIndex := 0 } rfl (by decide)
    (by decide +kernel)

end SharedNode

end StorageNode
end Spaceless
