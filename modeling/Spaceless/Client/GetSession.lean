import Spaceless.Logic.Content
import Spaceless.Logic.Machine
import Spaceless.Protocol.Message

/-!
# The downloads of a client to one local path

`get_file` asks for the fragments from the last number of the `.meta` file
on.  The handler of `RspGetFile` appends each fragment to the local file and
then its successor to the `.meta` file.  A connection can break after any
fragment, and the client can stop before or after it writes the `.meta` file,
with any part of the fragment in the local file, whose stream is closed last;
a later call goes on with what the files hold.
-/

namespace Spaceless
namespace Client

open Logic Protocol

/-- `m_get_session`, apart from the paths. -/
structure GetSession where
  sessionId : Int
  maxFragment : Int
  deriving DecidableEq

/-- The file at the local path and the numbers in its `.meta` file. -/
structure LocalFiles where
  localFile : List UInt8
  metaFile : List Int
  deriving DecidableEq

namespace LocalFiles

/-- The loop reads all numbers, and the last one stays. -/
def getNextFragment (files : LocalFiles) : Int :=
  files.metaFile.foldl (fun _ number => number) 0

def setNextFragment (files : LocalFiles) (nextFragment : Int) :
    LocalFiles where
  localFile := files.localFile
  metaFile := files.metaFile ++ [nextFragment]

/-- Write a fragment to the stream; in mode `"a"` it goes to the end of the
file, whatever position was sought before. -/
def write (files : LocalFiles) (fragmentContent : List UInt8) :
    LocalFiles where
  localFile := files.localFile ++ fragmentContent
  metaFile := files.metaFile

end LocalFiles

namespace GetSession

/-- As constructed. -/
def init : GetSession where
  sessionId := 0
  maxFragment := 0

def startGetFile (session : GetSession) (files : LocalFiles) :
    List ReqGetFile :=
  (List.range (session.maxFragment - files.getNextFragment).toNat).map
    fun round : Nat =>
      { sessionId := session.sessionId
        fragmentIndex := files.getNextFragment + round }

/-- `read_handler` on `RspGetFileSession`, with the requests that it sends. -/
def openHandler (session : GetSession) (files : LocalFiles)
    (response : RspGetFileSession) : GetSession × List ReqGetFile :=
  if response.error.isSome then (session, [])
  else
    let opened : GetSession :=
      { sessionId := response.sessionId, maxFragment := response.maxFragment }
    (opened, opened.startGetFile files)

/-- What `read_handler` writes to the `.meta` file after a fragment. -/
def record (session : GetSession) (files : LocalFiles)
    (fragmentIndex : Int) : LocalFiles :=
  if fragmentIndex + 1 < session.maxFragment then
    files.setNextFragment (fragmentIndex + 1)
  else files

/-- `read_handler` on `RspGetFile`. -/
def readHandler (session : GetSession) (files : LocalFiles)
    (response : RspGetFile) : LocalFiles :=
  if response.error.isSome then files
  else
    session.record (files.write response.fragmentContent)
      response.fragmentIndex

end GetSession

/-! ## Calls, responses and interruptions -/

/-- The response to a request for a fragment of the content. -/
def fragmentOf (content : List UInt8) (request : ReqGetFile) :
    RspGetFile where
  error := none
  sessionId := request.sessionId
  fragmentIndex := request.fragmentIndex
  fragmentContent := Content.readAt content
    (request.fragmentIndex * maxFragmentContentLen).toNat
    maxFragmentContentLen.toNat

/-- A call whose session was opened: the remote content and the requests that
are not answered yet; the fragment that it started from and the local file at
that time, and whether no other call wrote to the file since. -/
structure Transfer where
  content : List UInt8
  requests : List ReqGetFile
  first : Int
  found : List UInt8
  alone : Bool
  deriving DecidableEq

/-- The client with the files at the local path, the remote contents of the
calls that wait for a session, and the transfers; the content of the call
whose last fragment the last step processed. -/
structure Downloads where
  files : LocalFiles
  getSession : GetSession
  asked : List (List UInt8)
  transfers : List Transfer
  finished : Option (List UInt8)
  deriving DecidableEq

/-- A call of `get_file` for a remote file with the content; the response to
such a call; the response to the next request of a transfer; the same when the
client stops before or after it writes the `.meta` file, with so many bytes of
the fragment out of the buffer of the stream; a connection that breaks. -/
inductive GetEvent
  | getFile (content : List UInt8)
  | rspGetFileSession (call : Nat) (response : RspGetFileSession)
  | rspGetFile (transfer : Nat)
  | stop (transfer kept : Nat) (recorded : Bool)
  | disconnect

namespace Downloads

/-- Nothing was ever downloaded to the local path. -/
def init : Downloads where
  files := { localFile := [], metaFile := [] }
  getSession := GetSession.init
  asked := []
  transfers := []
  finished := none

/-- The transfer with its next request that the server answers; a fragment
whose position is not an `int` is never served. -/
def answer (downloads : Downloads) (transfer : Nat) :
    Option (Transfer × ReqGetFile × List ReqGetFile) :=
  match downloads.transfers[transfer]? with
  | none => none
  | some current =>
      match current.requests with
      | [] => none
      | request :: rest =>
          if request.fragmentIndex * maxFragmentContentLen < 2147483648 then
            some (current, request, rest)
          else none

/-- After the response to a call; an error leaves a transfer without
requests. -/
def opened (downloads : Downloads) (call : Nat) (content : List UInt8)
    (response : RspGetFileSession) : Downloads :=
  let outcome := downloads.getSession.openHandler downloads.files response
  { files := downloads.files
    getSession := outcome.1
    asked := downloads.asked.eraseIdx call
    transfers := downloads.transfers ++
      [{ content := content, requests := outcome.2
         first := downloads.files.getNextFragment
         found := downloads.files.localFile, alone := true }]
    finished := none }

end Downloads

/-- Another call wrote to the local file. -/
def Transfer.disturbed (transfer : Transfer) : Transfer :=
  { transfer with alone := false }

/-- The fragments up to this one reach the end of the remote content. -/
def Transfer.Reaches (transfer : Transfer) (request : ReqGetFile) : Prop :=
  transfer.content.length ≤
    (request.fragmentIndex + 1) * maxFragmentContentLen

instance (transfer : Transfer) (request : ReqGetFile) :
    Decidable (transfer.Reaches request) :=
  inferInstanceAs (Decidable (_ ≤ _))

/-- The local file held exactly the fragments before the first one that the
call asked for, when it asked. -/
def Transfer.Resumes (transfer : Transfer) : Prop :=
  transfer.found = transfer.content.take
    (transfer.first * maxFragmentContentLen).toNat

namespace Downloads

/-- After the response to a request. -/
def received (downloads : Downloads) (number : Nat) (transfer : Transfer)
    (request : ReqGetFile) (rest : List ReqGetFile) : Downloads where
  files := downloads.getSession.readHandler downloads.files
    (fragmentOf transfer.content request)
  getSession := downloads.getSession
  asked := downloads.asked
  transfers := (downloads.transfers.map Transfer.disturbed).set number
    { transfer with requests := rest }
  -- the handler takes the fragment for the last one
  finished :=
    if request.fragmentIndex + 1 < downloads.getSession.maxFragment then none
    else some transfer.content

/-- After the client stopped with a part of the fragment in the local file; it
starts again without a call. -/
def stopped (downloads : Downloads) (transfer : Transfer)
    (request : ReqGetFile) (kept : Nat) (recorded : Bool) : Downloads where
  files :=
    let written := downloads.files.write
      ((fragmentOf transfer.content request).fragmentContent.take kept)
    if recorded then
      downloads.getSession.record written request.fragmentIndex
    else written
  getSession := GetSession.init
  asked := []
  transfers := []
  finished := none

def step (downloads : Downloads) : GetEvent → Option Downloads
  | .getFile content =>
      some { downloads with
        asked := downloads.asked ++ [content], finished := none }
  | .rspGetFileSession call response =>
      downloads.asked[call]?.map fun content =>
        downloads.opened call content response
  | .rspGetFile number =>
      (downloads.answer number).map fun (transfer, request, rest) =>
        downloads.received number transfer request rest
  | .stop number kept recorded =>
      (downloads.answer number).map fun (transfer, request, _) =>
        downloads.stopped transfer request kept recorded
  | .disconnect =>
      some { downloads with asked := [], transfers := [], finished := none }

def machine : Machine Downloads GetEvent where
  start := init
  step := step

/-- What a condition asks of a response that the handler takes for the last
one. -/
def AtLast (condition : Transfer → ReqGetFile → Prop)
    (downloads : Downloads) : GetEvent → Prop
  | .rspGetFile number =>
      ∀ transfer request rest,
        downloads.answer number = some (transfer, request, rest) →
        ¬request.fragmentIndex + 1 < downloads.getSession.maxFragment →
        condition transfer request
  | _ => True

/-- The last response of a call comes when only the call has written to the
local file, which held what belongs before, and the fragments that the call
asked for reach the end of the remote content. -/
def Continues : Downloads → GetEvent → Prop :=
  AtLast fun transfer request =>
    transfer.alone = true ∧ transfer.Resumes ∧ transfer.Reaches request

/-- The last response of a call comes when only the call has written to the
local file, and the fragments reach the end, or the local file was not ahead
of the `.meta` file. -/
def Separate : Downloads → GetEvent → Prop :=
  AtLast fun transfer request =>
    transfer.alone = true ∧ (transfer.Reaches request ∨
      transfer.found.length ≤ (transfer.first * maxFragmentContentLen).toNat)

end Downloads

/-! ## What a transfer wrote -/

theorem position_add {first : Int} (counted : 0 ≤ first) (count : Nat) :
    ((first + count) * maxFragmentContentLen).toNat =
      (first * maxFragmentContentLen).toNat +
        count * maxFragmentContentLen.toNat := by
  change ((first + count) * 50000).toNat =
    (first * 50000).toNat + count * 50000
  omega

/-- The open requests follow on the fragments that were written; as long as
only the transfer writes, they are at the end of the local file. -/
def Transfer.Sound (localFile : List UInt8) (transfer : Transfer) : Prop :=
  0 ≤ transfer.first ∧ ∃ written : Nat,
    (∀ (round : Nat) (request : ReqGetFile),
      transfer.requests[round]? = some request →
        request.fragmentIndex = transfer.first + (written + round : Nat)) ∧
    (transfer.alone = true → localFile = transfer.found ++
      Content.readAt transfer.content
        (transfer.first * maxFragmentContentLen).toNat
        (written * maxFragmentContentLen.toNat))

namespace Transfer

variable {localFile : List UInt8} {transfer : Transfer}
  {request : ReqGetFile} {rest : List ReqGetFile}

theorem Sound.disturbed (sound : transfer.Sound localFile)
    (later : List UInt8) : transfer.disturbed.Sound later := by
  obtain ⟨counted, written, follow, -⟩ := sound
  exact ⟨counted, written, follow, fun alone => absurd alone Bool.false_ne_true⟩

/-- One more fragment. -/
theorem Sound.received (sound : transfer.Sound localFile)
    (requests : transfer.requests = request :: rest) :
    Sound (localFile ++ (fragmentOf transfer.content request).fragmentContent)
      { transfer with requests := rest } := by
  obtain ⟨counted, written, follow, alone⟩ := sound
  rw [requests] at follow
  refine ⟨counted, written + 1, ?_, ?_⟩
  · intro round other listed
    rw [follow (round + 1) other listed]
    congr 2
    omega
  · intro undisturbed
    rw [alone undisturbed, fragmentOf, follow 0 request rfl,
      position_add counted, Nat.succ_mul, Content.readAt_add,
      List.append_assoc, Nat.add_zero]

end Transfer

/-! ## Runs -/

namespace Downloads

/-- The `.meta` file counts from zero, and every transfer is sound. -/
structure Consistent (downloads : Downloads) : Prop where
  counted : 0 ≤ downloads.files.getNextFragment
  sound : ∀ transfer ∈ downloads.transfers,
    transfer.Sound downloads.files.localFile

variable {downloads next : Downloads}

theorem of_answer {number : Nat} {transfer : Transfer} {request : ReqGetFile}
    {rest : List ReqGetFile}
    (answer : downloads.answer number = some (transfer, request, rest)) :
    transfer ∈ downloads.transfers ∧
      transfer.requests = request :: rest := by
  unfold Downloads.answer at answer
  split at answer
  · cases answer
  · rename_i current listed
    split at answer
    · cases answer
    · rename_i first others requests
      obtain ⟨-, same⟩ := Option.ite_none_right_eq_some.mp answer
      cases same
      exact ⟨List.mem_of_getElem? listed, requests⟩

@[simp] theorem localFile_record (session : GetSession) (files : LocalFiles)
    (fragmentIndex : Int) :
    (session.record files fragmentIndex).localFile = files.localFile := by
  unfold GetSession.record
  split <;> rfl

@[simp] theorem localFile_received (number : Nat) (transfer : Transfer)
    (request : ReqGetFile) (rest : List ReqGetFile) :
    (downloads.received number transfer request rest).files.localFile =
      downloads.files.localFile ++
        (fragmentOf transfer.content request).fragmentContent :=
  localFile_record _ _ _

/-- The number that was written last. -/
@[simp] theorem getNextFragment_setNextFragment (files : LocalFiles)
    (nextFragment : Int) :
    (files.setNextFragment nextFragment).getNextFragment = nextFragment := by
  simp [LocalFiles.getNextFragment, LocalFiles.setNextFragment]

theorem counted_record {files : LocalFiles}
    (counted : 0 ≤ files.getNextFragment) (session : GetSession)
    {fragmentIndex : Int} (index : 0 ≤ fragmentIndex) :
    0 ≤ (session.record files fragmentIndex).getNextFragment := by
  unfold GetSession.record
  split
  · rw [getNextFragment_setNextFragment]
    omega
  · exact counted

/-- A call starts from the number in the `.meta` file. -/
theorem Consistent.opened (consistent : downloads.Consistent) (call : Nat)
    (content : List UInt8) (response : RspGetFileSession) :
    (downloads.opened call content response).Consistent where
  counted := consistent.counted
  sound := by
    intro transfer present
    rcases List.mem_append.mp present with before | new
    · exact consistent.sound transfer before
    · rw [List.mem_singleton.mp new]
      refine ⟨consistent.counted, 0, ?_, ?_⟩
      · intro round request listed
        simp only [GetSession.openHandler] at listed
        split at listed
        · simp at listed
        · obtain ⟨index, inside, rfl⟩ := List.getElem?_eq_some_iff.mp listed
          simp [GetSession.startGetFile]
      · intro _
        simp [Content.readAt, Downloads.opened]

/-- The numbers in the `.meta` file stay counted when a fragment is
recorded. -/
theorem Consistent.recorded (consistent : downloads.Consistent) {number : Nat}
    {transfer : Transfer} {request : ReqGetFile} {rest : List ReqGetFile}
    (answer : downloads.answer number = some (transfer, request, rest))
    (fragmentContent : List UInt8) :
    0 ≤ (downloads.getSession.record (downloads.files.write fragmentContent)
      request.fragmentIndex).getNextFragment := by
  obtain ⟨present, requests⟩ := of_answer answer
  obtain ⟨counted, written, follow, -⟩ := consistent.sound transfer present
  rw [requests] at follow
  have index : 0 ≤ request.fragmentIndex := by
    rw [follow 0 request rfl]
    omega
  have before : 0 ≤
      (downloads.files.write fragmentContent).getNextFragment :=
    consistent.counted
  exact counted_record before downloads.getSession index

theorem Consistent.received (consistent : downloads.Consistent) {number : Nat}
    {transfer : Transfer} {request : ReqGetFile} {rest : List ReqGetFile}
    (answer : downloads.answer number = some (transfer, request, rest)) :
    (downloads.received number transfer request rest).Consistent := by
  obtain ⟨present, requests⟩ := of_answer answer
  have sound := consistent.sound transfer present
  constructor
  · exact consistent.recorded answer _
  · intro other listed
    rw [localFile_received]
    rcases List.mem_or_eq_of_mem_set listed with before | rfl
    · obtain ⟨old, presentOld, rfl⟩ := List.mem_map.mp before
      exact (consistent.sound old presentOld).disturbed _
    · exact sound.received requests

theorem Continues.separate {event : GetEvent}
    (continues : downloads.Continues event) : downloads.Separate event := by
  cases event with
  | rspGetFile number =>
      intro transfer request rest answer last
      obtain ⟨alone, -, reaches⟩ :=
        continues transfer request rest answer last
      exact ⟨alone, Or.inl reaches⟩
  | _ => trivial

/-- A call for the remote content, with its session. -/
def opening (content : List UInt8) (maxFragment : Int) : List GetEvent :=
  [.getFile content,
    .rspGetFileSession 0
      { error := none, sessionId := 1, maxFragment := maxFragment }]

/-- The connection breaks after the first of two fragments, and a second call
goes on. -/
def resumed (content : List UInt8) : List GetEvent :=
  opening content 2 ++ [.rspGetFile 0, .disconnect] ++ opening content 2 ++
    [.rspGetFile 0]

end Downloads

end Client
end Spaceless
