import Spaceless.Client.File
import Spaceless.Logic.Machine
import Spaceless.Logic.Table
import Spaceless.StorageNode.Session

/-!
# The uploads of a client

`SharingFileManager` has one `m_put_session` for all uploads.  `put_file`
overwrites it and asks the server for a session; the handler of
`RspPutFileSession` completes it and sends the fragments, whichever call the
response belongs to.  The calls and the responses come in any order.
-/

namespace Spaceless
namespace Client

open Logic Foundation Protocol
open StorageNode (maxFragmentOf)

/-- `m_put_session`. -/
structure PutSession where
  sessionId : Int
  localPath : Text
  groupId : Int
  remotePath : Text
  maxFragment : Int
  deriving DecidableEq

namespace PutSession

/-- As constructed. -/
def init : PutSession where
  sessionId := 0
  localPath := []
  groupId := 0
  remotePath := []
  maxFragment := 0

section Functions

variable (files : Text → Option (List UInt8))

/-- `put_file` with the request that it sends.  The exception of a file that
cannot be opened ends the client. -/
def putFile (session : PutSession) (groupId : Int)
    (localPath remotePath : Text) : Option (PutSession × ReqPutFileSession) :=
  (files localPath).map fun content =>
    let maxFragment := maxFragmentOf content.length maxFragmentContentLen
    ({ session with
        localPath := localPath, groupId := groupId, remotePath := remotePath
        maxFragment := maxFragment },
      { groupId := groupId, filePath := remotePath
        maxFragment := maxFragment })

/-- The position of the fragment is an `int`; C++ leaves an overflow of the
product undefined. -/
def inInt (request : ReqPutFile) : Bool :=
  request.fragmentIndex * maxFragmentContentLen < 2147483648

/-- `start_put_file`, up to the first position that is not an `int`. -/
def startPutFile (session : PutSession) (nextFragment : Int) :
    List ReqPutFile :=
  match files session.localPath with
  | none => []
  | some localFile =>
      (Client.startPutFile
        { sessionId := session.sessionId, localFile := localFile
          maxFragment := session.maxFragment }
        nextFragment).takeWhile inInt

/-- `read_handler` on `RspPutFileSession`, with the requests that it sends. -/
def readHandler (session : PutSession) (response : RspPutFileSession) :
    PutSession × List ReqPutFile :=
  if response.error.isSome then (session, [])
  else
    let opened := { session with sessionId := response.sessionId }
    (opened, opened.startPutFile files response.nextFragment)

end Functions

variable {files : Text → Option (List UInt8)} {session : PutSession}

theorem putFile_eq_some {groupId : Int} {localPath remotePath : Text}
    {next : PutSession} {request : ReqPutFileSession}
    (put : session.putFile files groupId localPath remotePath =
      some (next, request)) :
    (files localPath).isSome ∧ next.localPath = localPath ∧
      next.maxFragment = request.maxFragment ∧ request.groupId = groupId ∧
      request.filePath = remotePath := by
  obtain ⟨content, found, same⟩ := Option.map_eq_some_iff.mp put
  cases same
  exact ⟨by rw [found]; rfl, rfl, rfl, rfl, rfl⟩

/-- What a fragment that `start_put_file` sends says. -/
theorem of_mem_startPutFile {nextFragment : Int} {request : ReqPutFile}
    (sent : request ∈ session.startPutFile files nextFragment) :
    ∃ localFile, files session.localPath = some localFile ∧
      request.sessionId = session.sessionId ∧
      nextFragment ≤ request.fragmentIndex ∧
      request.fragmentIndex < session.maxFragment ∧
      request.fragmentContent = Content.readAt localFile
        (request.fragmentIndex * maxFragmentContentLen).toNat
        maxFragmentContentLen.toNat := by
  unfold startPutFile at sent
  split at sent
  · cases sent
  · rename_i localFile found
    obtain ⟨round, listed, rfl⟩ :=
      List.mem_map.mp (List.takeWhile_subset _ sent)
    have inside : round < (session.maxFragment - nextFragment).toNat :=
      List.mem_range.mp listed
    refine ⟨localFile, found, rfl, ?_, ?_, rfl⟩
    · exact Int.le_add_of_nonneg_right (Int.natCast_nonneg round)
    · simp only [putFileRequest]
      omega

/-- When `start_put_file` has something to send. -/
theorem startPutFile_eq_nil_iff {localFile : List UInt8}
    (found : files session.localPath = some localFile) (nextFragment : Int) :
    session.startPutFile files nextFragment = [] ↔
      session.maxFragment ≤ nextFragment ∨
        2147483648 ≤ nextFragment * maxFragmentContentLen := by
  simp only [startPutFile, found, Client.startPutFile]
  cases rounds : (session.maxFragment - nextFragment).toNat with
  | zero =>
      have done : session.maxFragment ≤ nextFragment := by
        omega
      simp [done]
  | succ rest =>
      have left : ¬session.maxFragment ≤ nextFragment := by
        omega
      rw [List.range_succ_eq_map, List.map_cons, List.takeWhile_cons]
      simp [inInt, putFileRequest, left]

/-- The handler keeps the file of the session. -/
theorem readHandler_localPath (response : RspPutFileSession) :
    (session.readHandler files response).1.localPath = session.localPath := by
  unfold readHandler
  split <;> rfl

theorem readHandler_maxFragment (response : RspPutFileSession) :
    (session.readHandler files response).1.maxFragment =
      session.maxFragment := by
  unfold readHandler
  split <;> rfl

/-- What the handler sends goes into the session of the response. -/
theorem of_mem_readHandler {response : RspPutFileSession}
    {request : ReqPutFile}
    (sent : request ∈ (session.readHandler files response).2) :
    response.error.isSome = false ∧
      ∃ localFile, files session.localPath = some localFile ∧
        request.sessionId = response.sessionId ∧
        request.fragmentIndex < session.maxFragment ∧
        request.fragmentContent = Content.readAt localFile
          (request.fragmentIndex * maxFragmentContentLen).toNat
          maxFragmentContentLen.toNat := by
  unfold readHandler at sent
  split at sent
  · cases sent
  · rename_i noError
    obtain ⟨localFile, found, own, -, inside, content⟩ :=
      of_mem_startPutFile sent
    exact ⟨Bool.eq_false_of_not_eq_true noError, localFile, found, own,
      inside, content⟩

theorem readHandler_eq_nil_iff {localFile : List UInt8}
    (found : files session.localPath = some localFile)
    (response : RspPutFileSession) :
    (session.readHandler files response).2 = [] ↔
      response.error.isSome ∨
        session.maxFragment ≤ response.nextFragment ∨
        2147483648 ≤ response.nextFragment * maxFragmentContentLen := by
  unfold readHandler
  split
  · rename_i failed
    exact iff_of_true rfl (Or.inl failed)
  · rename_i noError
    have opened : files { session with
        sessionId := response.sessionId }.localPath = some localFile := found
    exact (startPutFile_eq_nil_iff opened response.nextFragment).trans
      (or_iff_right noError).symm

end PutSession

/-! ## Calls and responses -/

/-- A call of `put_file`: the local file and the request that it sent. -/
structure PutCall where
  localPath : Text
  request : ReqPutFileSession
  deriving DecidableEq

/-- A fragment that was sent, with `m_put_session` as it was then. -/
structure SentFragment where
  session : PutSession
  request : ReqPutFile
  deriving DecidableEq

/-- `SharingFileManager` with its calls so far, the call that the server
opened each session for, and the fragments sent. -/
structure Uploads where
  putSession : PutSession
  calls : List PutCall
  opened : Table Int Nat
  sent : List SentFragment
  deriving DecidableEq

/-- A call of `put_file`, or the response to a call. -/
inductive PutEvent
  | putFile (groupId : Int) (localPath remotePath : Text)
  | rspPutFileSession (call : Nat) (response : RspPutFileSession)

namespace Uploads

def init : Uploads where
  putSession := PutSession.init
  calls := []
  opened := ∅
  sent := []

/-- The call is for a local and a remote file of its own. -/
def Fresh (uploads : Uploads) (groupId : Int)
    (localPath remotePath : Text) : Prop :=
  ∀ call ∈ uploads.calls, call.localPath ≠ localPath ∧
    (call.request.groupId = groupId → call.request.filePath ≠ remotePath)

instance (uploads : Uploads) (groupId : Int) (localPath remotePath : Text) :
    Decidable (uploads.Fresh groupId localPath remotePath) :=
  inferInstanceAs (Decidable (∀ call ∈ uploads.calls, _))

/-- What the server answers to a call: an error, or a session that it opened
for no other call and the number of a fragment. -/
def Answers (uploads : Uploads) (call : Nat)
    (response : RspPutFileSession) : Prop :=
  call < uploads.calls.length ∧
    (response.error.isSome ∨
      0 ≤ response.nextFragment ∧
        (uploads.opened[response.sessionId]?).getD call = call)

instance (uploads : Uploads) (call : Nat) (response : RspPutFileSession) :
    Decidable (uploads.Answers call response) :=
  inferInstanceAs (Decidable (_ ∧ _))

/-- The state after a response. -/
def answered (uploads : Uploads) (call : Nat) (response : RspPutFileSession)
    (outcome : PutSession × List ReqPutFile) : Uploads where
  putSession := outcome.1
  calls := uploads.calls
  opened :=
    if response.error.isSome then uploads.opened
    else uploads.opened.insert response.sessionId call
  sent := uploads.sent ++ outcome.2.map (SentFragment.mk outcome.1)

@[simp] theorem opened_answered (uploads : Uploads) (call : Nat)
    (response : RspPutFileSession) (outcome : PutSession × List ReqPutFile) :
    (uploads.answered call response outcome).opened =
      if response.error.isSome then uploads.opened
      else uploads.opened.insert response.sessionId call := rfl

variable (files : Text → Option (List UInt8))

def step (uploads : Uploads) : PutEvent → Option Uploads
  | .putFile groupId localPath remotePath =>
      if uploads.Fresh groupId localPath remotePath then
        (uploads.putSession.putFile files groupId localPath remotePath).map
          fun outcome =>
            { uploads with
              putSession := outcome.1
              calls := uploads.calls ++
                [{ localPath := localPath, request := outcome.2 }] }
      else none
  | .rspPutFileSession call response =>
      if uploads.Answers call response then
        some (uploads.answered call response
          (uploads.putSession.readHandler files response))
      else none

/-- A client on the local files. -/
def machine : Machine Uploads PutEvent where
  start := init
  step := step files

/-- The fragment is one of the local file that the call was given, cut as the
call announced it. -/
structure CutFrom (call : PutCall) (fragment : SentFragment) : Prop where
  localPath : fragment.session.localPath = call.localPath
  maxFragment : fragment.session.maxFragment = call.request.maxFragment
  inside : fragment.request.fragmentIndex < call.request.maxFragment
  content : ∃ localFile, files call.localPath = some localFile ∧
    fragment.request.fragmentContent = Content.readAt localFile
      (fragment.request.fragmentIndex * maxFragmentContentLen).toNat
      maxFragmentContentLen.toNat

/-- Every fragment was sent into the session of a call, and is one of its
local file. -/
def CarriesOwn (uploads : Uploads) : Prop :=
  ∀ fragment ∈ uploads.sent, ∃ number call,
    uploads.opened[fragment.request.sessionId]? = some number ∧
      uploads.calls[number]? = some call ∧ CutFrom files call fragment

/-- The response is the one to the last call, or there is nothing to send on
it: it is an error, or the fragment that it asks for is not one of the last
call's file. -/
def ReadsOwn (uploads : Uploads) : PutEvent → Prop
  | .putFile _ _ _ => True
  | .rspPutFileSession call response =>
      call + 1 = uploads.calls.length ∨ response.error.isSome ∨
        uploads.putSession.maxFragment ≤ response.nextFragment ∨
        2147483648 ≤ response.nextFragment * maxFragmentContentLen

/-- `m_put_session` is that of the last call, and no two calls are for one
local file. -/
structure Current (uploads : Uploads) : Prop where
  localPath : ∀ (number : Nat) (call : PutCall),
    uploads.calls[number]? = some call →
    number + 1 = uploads.calls.length →
    uploads.putSession.localPath = call.localPath
  maxFragment : ∀ (number : Nat) (call : PutCall),
    uploads.calls[number]? = some call →
    number + 1 = uploads.calls.length →
    uploads.putSession.maxFragment = call.request.maxFragment
  apart : (uploads.calls.map PutCall.localPath).Nodup
  exist : ∀ call ∈ uploads.calls, (files call.localPath).isSome

/-! ## Steps -/

variable {files}

theorem current_init : Current files init where
  localPath := by simp [init]
  maxFragment := by simp [init]
  apart := List.nodup_nil
  exist := by simp [init]

variable {uploads next : Uploads}

/-- A call makes the session its own. -/
theorem Current.putFile (current : Current files uploads)
    {groupId : Int} {localPath remotePath : Text} {session : PutSession}
    {request : ReqPutFileSession}
    (fresh : uploads.Fresh groupId localPath remotePath)
    (put : uploads.putSession.putFile files groupId localPath remotePath =
      some (session, request)) :
    Current files { uploads with
      putSession := session
      calls := uploads.calls ++
        [{ localPath := localPath, request := request }] } := by
  obtain ⟨exist, path, maxFragment, -, -⟩ := PutSession.putFile_eq_some put
  have last {number : Nat} {call : PutCall}
      (listed : (uploads.calls ++ [PutCall.mk localPath request])[number]? =
        some call)
      (atEnd : number + 1 =
        (uploads.calls ++ [PutCall.mk localPath request]).length) :
      call = PutCall.mk localPath request := by
    rw [List.length_append, List.length_singleton] at atEnd
    obtain rfl : number = uploads.calls.length := by
      omega
    rw [List.getElem?_concat_length] at listed
    exact (Option.some.inj listed).symm
  constructor
  · intro number call listed atEnd
    rw [last listed atEnd]
    exact path
  · intro number call listed atEnd
    rw [last listed atEnd]
    exact maxFragment
  · rw [List.map_append, List.map_singleton]
    refine List.nodup_append.mpr ⟨current.apart,
      List.pairwise_singleton _ _, ?_⟩
    intro other before new same
    obtain ⟨call, present, rfl⟩ := List.mem_map.mp before
    rw [List.mem_singleton.mp same]
    exact (fresh call present).1
  · intro call present
    rcases List.mem_append.mp present with before | new
    · exact current.exist call before
    · rw [List.mem_singleton.mp new]
      exact exist

/-- A response leaves the file of the session. -/
theorem Current.answered (current : Current files uploads) (call : Nat)
    (response : RspPutFileSession) :
    Current files (uploads.answered call response
      (uploads.putSession.readHandler files response)) where
  localPath number call listed last :=
    (PutSession.readHandler_localPath response).trans
      (current.localPath number call listed last)
  maxFragment number call listed last :=
    (PutSession.readHandler_maxFragment response).trans
      (current.maxFragment number call listed last)
  apart := current.apart
  exist := current.exist

theorem current_step {event : PutEvent} (current : Current files uploads)
    (stepped : uploads.step files event = some next) :
    Current files next := by
  cases event with
  | putFile groupId localPath remotePath =>
      obtain ⟨fresh, put⟩ := Option.ite_none_right_eq_some.mp stepped
      obtain ⟨⟨session, request⟩, ran, rfl⟩ := Option.map_eq_some_iff.mp put
      exact current.putFile fresh ran
  | rspPutFileSession call response =>
      obtain ⟨-, same⟩ := Option.ite_none_right_eq_some.mp stepped
      cases same
      exact current.answered call response

/-- A call keeps what the fragments before it carry. -/
theorem CarriesOwn.putFile (carries : CarriesOwn files uploads)
    (session : PutSession) (call : PutCall) :
    CarriesOwn files { uploads with
      putSession := session, calls := uploads.calls ++ [call] } := by
  intro fragment sent
  obtain ⟨number, own, opened, listed, cut⟩ := carries fragment sent
  refine ⟨number, own, opened, ?_, cut⟩
  rw [List.getElem?_append_left (List.getElem?_eq_some_iff.mp listed).1]
  exact listed

/-- A session stays that of its call when a response names it. -/
theorem lookup_answered {call : Nat} {response : RspPutFileSession}
    (answers : uploads.Answers call response)
    (outcome : PutSession × List ReqPutFile) {sessionId : Int} {number : Nat}
    (opened : uploads.opened[sessionId]? = some number) :
    (uploads.answered call response outcome).opened[sessionId]? =
      some number := by
  by_cases failed : response.error.isSome
  · rw [opened_answered, if_pos failed]
    exact opened
  · rw [opened_answered, if_neg failed]
    by_cases same : response.sessionId = sessionId
    · obtain ⟨-, own⟩ := answers.2.resolve_left failed
      rw [same, opened, Option.getD_some] at own
      rw [same, own, Table.lookup_insert_self]
    · rw [Table.lookup_insert_of_ne _ _ same]
      exact opened

/-- The file of `m_put_session` is that of the last call. -/
theorem Current.last (current : Current files uploads)
    (asked : 0 < uploads.calls.length) :
    ∃ call localFile, uploads.calls[uploads.calls.length - 1]? = some call ∧
      uploads.putSession.localPath = call.localPath ∧
      files uploads.putSession.localPath = some localFile := by
  have inside : uploads.calls.length - 1 < uploads.calls.length := by
    omega
  have listed := List.getElem?_eq_getElem inside
  have path := current.localPath _ _ listed (Nat.sub_add_cancel asked)
  obtain ⟨localFile, found⟩ := Option.isSome_iff_exists.mp
    (current.exist _ (List.getElem_mem inside))
  exact ⟨_, localFile, listed, path, by rw [path, found]⟩

/-- Two calls for one local file are one call. -/
theorem Current.unique (current : Current files uploads) {first second : Nat}
    {call other : PutCall} (listed : uploads.calls[first]? = some call)
    (listedOther : uploads.calls[second]? = some other)
    (same : call.localPath = other.localPath) : first = second := by
  have inside : first < (uploads.calls.map PutCall.localPath).length := by
    rw [List.length_map]
    exact (List.getElem?_eq_some_iff.mp listed).1
  apply (List.getElem?_inj inside current.apart).mp
  rw [List.getElem?_map, List.getElem?_map, listed, listedOther]
  exact congrArg some same

/-- A response that reads the session of its own call sends its file. -/
theorem CarriesOwn.answered (current : Current files uploads)
    (carries : CarriesOwn files uploads) {call : Nat}
    {response : RspPutFileSession}
    (answers : uploads.Answers call response)
    (reads : uploads.ReadsOwn (.rspPutFileSession call response)) :
    CarriesOwn files (uploads.answered call response
      (uploads.putSession.readHandler files response)) := by
  intro fragment sent
  rcases List.mem_append.mp sent with before | new
  · obtain ⟨number, own, opened, listed, cut⟩ := carries fragment before
    exact ⟨number, own, lookup_answered answers _ opened, listed, cut⟩
  · obtain ⟨request, pushed, rfl⟩ := List.mem_map.mp new
    obtain ⟨noError, localFile, found, session, inside, content⟩ :=
      PutSession.of_mem_readHandler pushed
    have last : call + 1 = uploads.calls.length := by
      apply reads.resolve_right
      intro nothing
      rw [(PutSession.readHandler_eq_nil_iff found response).mpr nothing]
        at pushed
      cases pushed
    have listed := List.getElem?_eq_getElem answers.1
    have path := current.localPath call _ listed last
    have total := current.maxFragment call _ listed last
    refine ⟨call, _, ?_, listed, ?_⟩
    · simp only [opened_answered, noError, session, Bool.false_eq_true,
        if_false, Table.lookup_insert_self]
    · exact {
        localPath := (PutSession.readHandler_localPath response).trans path
        maxFragment :=
          (PutSession.readHandler_maxFragment response).trans total
        inside := by rw [← total]; exact inside
        content := ⟨localFile, by rw [← path]; exact found, content⟩ }

/-- What a response sends carries the bytes of its call's file exactly when
the response reads the session of that call, or nothing is sent. -/
theorem carriesOwn_answered (current : Current files uploads)
    (carries : CarriesOwn files uploads) {call : Nat}
    {response : RspPutFileSession}
    (answers : uploads.Answers call response) :
    CarriesOwn files (uploads.answered call response
        (uploads.putSession.readHandler files response)) ↔
      uploads.ReadsOwn (.rspPutFileSession call response) := by
  constructor
  · intro carriesAfter
    obtain ⟨last, localFile, listedLast, path, found⟩ :=
      current.last (Nat.zero_lt_of_lt answers.1)
    by_cases nothing : (uploads.putSession.readHandler files response).2 = []
    · exact Or.inr
        ((PutSession.readHandler_eq_nil_iff found response).mp nothing)
    · -- a fragment is sent, from the file of the last call
      obtain ⟨request, pushed⟩ := List.exists_mem_of_ne_nil _ nothing
      obtain ⟨noError, -, -, session, -, -⟩ :=
        PutSession.of_mem_readHandler pushed
      obtain ⟨number, own, opened, listed, cut⟩ := carriesAfter _
        (List.mem_append_right _ (List.mem_map_of_mem pushed))
      simp only [opened_answered, noError, session, Bool.false_eq_true,
        if_false, Table.lookup_insert_self, Option.some.injEq] at opened
      subst opened
      have same : own.localPath = last.localPath :=
        cut.localPath.symm.trans
          ((PutSession.readHandler_localPath response).trans path)
      have latest := current.unique listed listedLast same
      left
      have inside := answers.1
      omega
  · exact carries.answered current answers

/-! ## Runs -/

/-- In a run of a client on its local files every fragment that it sends
carries the bytes of the file of the call whose session it goes into, cut as
that call announced it, exactly when no response to an earlier call makes it
send fragments of the last call's file. -/
theorem carriesOwn_throughout_iff {events : List PutEvent} {last : Uploads}
    (run : (machine files).Reaches events last) :
    (machine files).Throughout (CarriesOwn files) events ↔
      (machine files).StepsMeet ReadsOwn events := by
  refine Machine.Reaches.throughout_iff_stepsMeet (Current files)
    current_init (fun _ _ _ => current_step) ?_ ?_ run
  · exact List.forall_mem_nil _
  · intro uploads event next current carries stepped
    cases event with
    | putFile groupId localPath remotePath =>
        obtain ⟨-, put⟩ := Option.ite_none_right_eq_some.mp stepped
        obtain ⟨outcome, -, rfl⟩ := Option.map_eq_some_iff.mp put
        exact iff_of_true (carries.putFile _ _) trivial
    | rspPutFileSession call response =>
        obtain ⟨answers, same⟩ := Option.ite_none_right_eq_some.mp stepped
        cases same
        exact carriesOwn_answered current carries answers

/-- Two local files of one byte each. -/
def twoFiles (path : Text) : Option (List UInt8) :=
  if path = ['a'] then some [1]
  else if path = ['b'] then some [2]
  else none

/-- The first file is put to a remote path. -/
def putFirst : PutEvent := .putFile 1 ['a'] ['x']

/-- The server opens a session for it. -/
def answerFirst : PutEvent :=
  .rspPutFileSession 0 { error := none, sessionId := 1, nextFragment := 0 }

/-- The second file is put to another one. -/
def putSecond : PutEvent := .putFile 1 ['b'] ['y']

def answerSecond : PutEvent :=
  .rspPutFileSession 1 { error := none, sessionId := 2, nextFragment := 0 }

/-- The client after the events. -/
def uploadsAfter (events : List PutEvent)
    (run : ((machine twoFiles).run Uploads.init events).isSome) : Uploads :=
  ((machine twoFiles).run Uploads.init events).get run

theorem uploadsAfter_reaches (events : List PutEvent)
    (run : ((machine twoFiles).run Uploads.init events).isSome) :
    (machine twoFiles).Reaches events (uploadsAfter events run) :=
  (Option.some_get run).symm

/-- Each call is answered before the next one. -/
theorem carriesOwn_throughout_answeredInTurn :
    (machine twoFiles).Throughout (CarriesOwn twoFiles)
      [putFirst, answerFirst, putSecond, answerSecond] := by
  apply (carriesOwn_throughout_iff
    (uploadsAfter_reaches _ (by decide +kernel))).mpr
  have nothing : (machine twoFiles).StepsMeet ReadsOwn [] :=
    Machine.StepsMeet.of_forall fun _ present => by cases present
  have first : (machine twoFiles).StepsMeet ReadsOwn [putFirst] :=
    nothing.snoc fun _ _ => trivial
  have firstAnswered : (machine twoFiles).StepsMeet ReadsOwn
      [putFirst, answerFirst] := by
    refine first.snoc fun uploads run => ?_
    obtain rfl := run.unique
      (uploadsAfter_reaches [putFirst] (by decide +kernel))
    exact Or.inl (by decide +kernel)
  have second : (machine twoFiles).StepsMeet ReadsOwn
      [putFirst, answerFirst, putSecond] :=
    firstAnswered.snoc fun _ _ => trivial
  refine second.snoc fun uploads run => ?_
  obtain rfl := run.unique
    (uploadsAfter_reaches [putFirst, answerFirst, putSecond]
      (by decide +kernel))
  exact Or.inl (by decide +kernel)

/-- The second file is put before the server answers. -/
def crossedEvents : List PutEvent :=
  [putFirst, putSecond, answerFirst]

/-- The client after the answer. -/
def crossedUploads : Uploads where
  putSession :=
    { sessionId := 1, localPath := ['b'], groupId := 1, remotePath := ['y']
      maxFragment := 1 }
  calls :=
    [{ localPath := ['a']
       request := { groupId := 1, filePath := ['x'], maxFragment := 1 } },
     { localPath := ['b']
       request := { groupId := 1, filePath := ['y'], maxFragment := 1 } }]
  opened := (∅ : Table Int Nat).insert 1 0
  sent :=
    [{ session :=
         { sessionId := 1, localPath := ['b'], groupId := 1
           remotePath := ['y'], maxFragment := 1 }
       request :=
         { sessionId := 1, fragmentIndex := 0, fragmentContent := [2] } }]

/-- The byte of the second file goes into the session of the first. -/
theorem not_carriesOwn_always :
    ¬∀ files events uploads, (machine files).Reaches events uploads →
      CarriesOwn files uploads := by
  intro always
  have reaches : (machine twoFiles).Reaches crossedEvents crossedUploads := by
    decide +kernel
  obtain ⟨number, call, opened, listed, cut⟩ :=
    always twoFiles crossedEvents crossedUploads reaches _
      List.mem_cons_self
  have first : crossedUploads.opened[(1 : Int)]? = some 0 := by
    decide +kernel
  obtain rfl : 0 = number := Option.some.inj (first.symm.trans opened)
  obtain rfl := Option.some.inj listed
  obtain ⟨localFile, found, content⟩ := cut.content
  obtain rfl : [1] = localFile := Option.some.inj found
  exact absurd content (by decide)

end Uploads

end Client
end Spaceless
