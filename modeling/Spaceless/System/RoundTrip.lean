import Spaceless.Client.File
import Spaceless.StorageNode.Unopened
import Spaceless.StorageNode.Upload
import Spaceless.System.FragmentCount

/-!
# An upload and a download of it

The client cuts a file, the node stores the fragments and reads them back.
The three loops compute positions and short last blocks on their own, and
agree for every content, number of fragments and point of resumption.
-/

namespace Spaceless
namespace System

open Logic Foundation Protocol StorageNode Storage

variable (permits : FileMode → Text → Bool)

/-- The request that the server forwards to the node. -/
def forwarded (nodeSessionId : Int) (request : ReqPutFile) : ReqPutFile :=
  { request with sessionId := nodeSessionId }

theorem forwarded_putFileRequest (nodeSessionId : Int)
    (client : Client.FileSession) (index : Nat) :
    forwarded nodeSessionId (Client.putFileRequest client index) =
      { sessionId := nodeSessionId, fragmentIndex := index
        fragmentContent := Content.chunk client.localFile
          maxFragmentContentLen.toNat index } := by
  simp only [forwarded, Client.putFileRequest_content]
  rfl

/-- Put fragments one after another. -/
def putAll : List ReqPutFile → Action Fault Storage Unit
  | [] => pure ()
  | request :: requests => do
      putFragment permits request
      putAll requests

/-- Get fragments one after another. -/
def getAll : List ReqGetFile → Action Fault Storage (List (List UInt8))
  | [] => pure []
  | request :: requests => do
      let fragment ← getFragment permits request
      let fragments ← getAll requests
      pure (fragment :: fragments)

/-- The requests for the first fragments of a session. -/
def getRequests (sessionId : Int) (count : Nat) : List ReqGetFile :=
  (List.range count).map fun index : Nat =>
    { sessionId := sessionId, fragmentIndex := index }

variable {permits}

/-- Putting one more fragment. -/
theorem putAll_snoc {requests : List ReqPutFile} {request : ReqPutFile}
    {storage middle later : Storage}
    (before : putAll permits requests storage = (.ok (), middle))
    (last : putFragment permits request middle = (.ok (), later)) :
    putAll permits (requests ++ [request]) storage = (.ok (), later) := by
  induction requests generalizing storage with
  | nil =>
      cases before
      simp [putAll, Action.bind_apply, last]
  | cons first requests inductionHypothesis =>
      simp only [putAll, List.cons_append, Action.bind_apply] at before ⊢
      split at before
      · exact inductionHypothesis before
      · cases before

/-- Getting one more fragment. -/
theorem getAll_snoc {requests : List ReqGetFile} {request : ReqGetFile}
    {storage middle later : Storage} {fragments : List (List UInt8)}
    {fragment : List UInt8}
    (before : getAll permits requests storage = (.ok fragments, middle))
    (last : getFragment permits request middle = (.ok fragment, later)) :
    getAll permits (requests ++ [request]) storage =
      (.ok (fragments ++ [fragment]), later) := by
  induction requests generalizing storage fragments with
  | nil =>
      cases before
      simp [getAll, Action.bind_apply, last]
  | cons first requests inductionHypothesis =>
      simp only [getAll, List.cons_append, Action.bind_apply] at before ⊢
      split at before
      · rename_i head next ran
        split at before
        · rename_i tail final rest
          cases before
          rw [inductionHypothesis rest]
          rfl
        · cases before
      · cases before

/-- The positions of a file that fits in `int` can be computed. -/
theorem startPosOf_of_fits {count index : Nat}
    (fits : count * maxFragmentContentLen < 2 ^ 31) (inside : index < count) :
    startPosOf index = .ok (index * maxFragmentContentLen) := by
  simp only [startPosOf]
  rw [if_pos]
  simp only [maxFragmentContentLen] at fits ⊢
  omega

/-- The session stays until its last fragment. -/
theorem registered_of_finished {storage : Storage} {session : FileSession}
    (registered : storage.sessions.findSession session.sessionId =
      some session)
    {fragmentIndex : Int} (notLast : fragmentIndex + 1 ≠ session.maxFragment)
    (files : SharingFileManager) :
    (storage.finished session fragmentIndex files).sessions.findSession
      session.sessionId = some session := by
  rw [finished, if_neg notLast]
  exact registered

/-! ## Storing -/

section Storing

variable {storage : Storage} {session : FileSession} {count : Nat}

/-- The node accepts a fragment in the range. -/
theorem putFragment_accepted
    (registered : storage.sessions.findSession session.sessionId =
      some session)
    (total : session.maxFragment = count)
    (fits : count * maxFragmentContentLen < 2 ^ 31)
    (permitted : permits .truncate
      (storage.files.getAbsolutePath session.filename) = true)
    {index : Nat} (inside : index < count) (fragment : List UInt8) :
    ∃ later,
      putFragment permits
        { sessionId := session.sessionId, fragmentIndex := index
          fragmentContent := fragment } storage = (.ok (), later) ∧
      (index + 1 < count → later.sessions.findSession session.sessionId =
        some session) ∧
      (index + 1 = count → storage.sessions.OnePerFile →
        later.sessions.findSessionOf session.filename = none) := by
  have run := putFragment_run permits storage
    { sessionId := session.sessionId, fragmentIndex := index
      fragmentContent := fragment }
  rcases SharingFileManager.putFile_cases permits storage.files
    session.filename fragment (index * maxFragmentContentLen) with
    ⟨_, stream, opened, _, put⟩ | ⟨shut, _⟩
  · refine ⟨_, run.of_registered registered ?_
      (startPosOf_of_fits fits inside) put, ?_, ?_⟩
    · rw [total]
      exact Int.ofNat_lt.mpr inside
    · intro before
      exact registered_of_finished registered (by
        rw [total]
        exact ne_of_lt (Int.ofNat_lt.mpr before)) _
    · intro last once
      rw [finished, if_pos (by rw [total, ← last]; rfl)]
      exact once.findSessionOf_removeSession registered
  · exact absurd (Or.inr permitted) shut

/-- The node accepts the first fragments of a session, one after another, and
ends the session with the last one. -/
theorem putAll_accepted (names : storage.Names session)
    (once : storage.sessions.OnePerFile)
    (registered : storage.sessions.findSession session.sessionId =
      some session)
    (total : session.maxFragment = count)
    (fits : count * maxFragmentContentLen < 2 ^ 31)
    (permitted : permits .truncate
      (storage.files.getAbsolutePath session.filename) = true)
    (client : Client.FileSession) {sent : Nat} (within : sent ≤ count) :
    ∃ later,
      putAll permits ((List.range sent).map fun index : Nat =>
          forwarded session.sessionId
            (Client.putFileRequest client index)) storage =
        (.ok (), later) ∧
      Accepted permits session storage
        (Content.chunks client.localFile maxFragmentContentLen.toNat sent)
        later ∧
      (sent < count → later.sessions.findSession session.sessionId =
        some session) ∧
      (sent = count → 0 < sent →
        later.sessions.findSessionOf session.filename = none) := by
  induction sent with
  | zero =>
      exact ⟨storage, rfl, .none storage, fun _ => registered,
        fun _ none => absurd none (Nat.lt_irrefl 0)⟩
  | succ sent inductionHypothesis =>
      obtain ⟨middle, before, accepted, live, -⟩ :=
        inductionHypothesis (Nat.le_of_succ_le within)
      rw [← SharingFileManager.getAbsolutePath_congr
        (accepted.sharingPath names)] at permitted
      obtain ⟨later, put, registeredLater, ends⟩ :=
        putFragment_accepted (live within) total fits permitted within
          (Content.chunk client.localFile maxFragmentContentLen.toNat sent)
      refine ⟨later, ?_, ?_, registeredLater,
        fun last _ => ends last (accepted.onePerFile names once)⟩
      · rw [List.range_succ, List.map_append]
        refine putAll_snoc before ?_
        simpa only [forwarded_putFileRequest] using put
      · rw [Content.chunks_succ]
        refine .next accepted (.refl middle) _ ?_
        rw [Content.length_chunks]
        exact put

end Storing

/-! ## Reading -/

variable (permits) in
/-- The stored file of the name can be read as the content. -/
structure Readable (storage : Storage) (filename : Text)
    (content : List UInt8) : Prop where
  exist : storage.files.fileExists
    (storage.files.getAbsolutePath filename) = true
  shown : storage.files.shown
    (storage.files.getAbsolutePath filename) = content
  permitted : permits .truncate
    (storage.files.getAbsolutePath filename) = true

section Reading

variable {storage : Storage} {session : FileSession} {count : Nat}
  {content : List UInt8}

/-- The node returns a fragment in the range. -/
theorem getFragment_chunk
    (readable : Readable permits storage session.filename content)
    (registered : storage.sessions.findSession session.sessionId =
      some session)
    (total : count ≤ session.maxFragment)
    (fits : count * maxFragmentContentLen < 2 ^ 31)
    {index : Nat} (inside : index < count) :
    ∃ later,
      getFragment permits
        { sessionId := session.sessionId, fragmentIndex := index } storage =
        (.ok (Content.chunk content maxFragmentContentLen.toNat index),
          later) ∧
      Readable permits later session.filename content ∧
      (index + 1 < count → later.sessions.findSession session.sessionId =
        some session) := by
  have run := getFragment_run permits storage
    { sessionId := session.sessionId, fragmentIndex := index }
  obtain ⟨bytes, files, got⟩ : ∃ bytes files,
      SharingFileManager.getFile permits session.filename
        maxFragmentContentLen.toNat (index * maxFragmentContentLen)
        storage.files = (.ok bytes, files) := by
    rcases SharingFileManager.getFile_cases permits storage.files
      session.filename maxFragmentContentLen.toNat
      (index * maxFragmentContentLen) with
      ⟨_, stream, opened, _, got⟩ | ⟨shut, _⟩
    · exact ⟨_, _, got⟩
    · exact absurd ⟨readable.exist, Or.inr readable.permitted⟩ shut
  have ran := run.of_registered registered (by simp only; omega)
    (startPosOf_of_fits fits inside) got
  have read := SharingFileManager.bytes_getFile got (by
    simp only [maxFragmentContentLen]
    omega)
  have samePath := SharingFileManager.getAbsolutePath_congr
    (SharingFileManager.sharingPath_getFile got)
  refine ⟨storage.finished session index files, ran.trans ?_, ⟨?_, ?_, ?_⟩,
    ?_⟩
  · rw [read, readable.shown]
    rfl
  · rw [finished, samePath]
    exact SharingFileManager.fileExists_getFile got readable.exist
  · rw [finished, samePath, SharingFileManager.shown_getFile got,
      readable.shown]
  · rw [finished, samePath]
    exact readable.permitted
  · intro before
    exact registered_of_finished registered (by omega) _

/-- The node returns the first fragments of a file, one after another. -/
theorem getAll_chunks
    (readable : Readable permits storage session.filename content)
    (registered : storage.sessions.findSession session.sessionId =
      some session)
    (total : count ≤ session.maxFragment)
    (fits : count * maxFragmentContentLen < 2 ^ 31)
    {read : Nat} (within : read ≤ count) :
    ∃ later,
      getAll permits (getRequests session.sessionId read) storage =
        (.ok (Content.chunks content maxFragmentContentLen.toNat read),
          later) ∧
      Readable permits later session.filename content ∧
      (read < count → later.sessions.findSession session.sessionId =
        some session) := by
  induction read with
  | zero => exact ⟨storage, rfl, readable, fun _ => registered⟩
  | succ read inductionHypothesis =>
      obtain ⟨middle, before, readableBefore, live⟩ :=
        inductionHypothesis (Nat.le_of_succ_le within)
      obtain ⟨later, got, readableLater, liveLater⟩ :=
        getFragment_chunk readableBefore (live within) total fits within
      refine ⟨later, ?_, readableLater, liveLater⟩
      rw [getRequests, List.range_succ, List.map_append, Content.chunks_succ]
      exact getAll_snoc before got

end Reading

/-! ## Storing and reading -/

section StoringAndReading

variable {storage stored : Storage} {session : FileSession}
  {client : Client.FileSession} {count : Nat}

theorem le_mul_fragmentLen
    (above : client.localFile.length ≤ count * maxFragmentContentLen) :
    client.localFile.length ≤ count * maxFragmentContentLen.toNat := by
  have size : maxFragmentContentLen.toNat = 50000 := rfl
  rw [maxFragmentContentLen] at above
  rw [size]
  omega

theorem fullBeforeLast_fragments
    (below : ((count : Int) - 1) * maxFragmentContentLen <
      client.localFile.length) :
    Content.FullBeforeLast maxFragmentContentLen.toNat
      (Content.chunks client.localFile maxFragmentContentLen.toNat
        count) := by
  have size : maxFragmentContentLen.toNat = 50000 := rfl
  apply Content.fullBeforeLast_chunks
  rw [maxFragmentContentLen] at below
  rw [size]
  omega

/-- The file of an upload can be read as the uploaded content until something
else is put to it. -/
theorem readable_of_accepted (names : storage.Names session)
    (accepted : Accepted permits session storage
      (Content.chunks client.localFile maxFragmentContentLen.toNat count)
      stored)
    (below : ((count : Int) - 1) * maxFragmentContentLen <
      client.localFile.length)
    (above : client.localFile.length ≤ count * maxFragmentContentLen)
    (counts : 0 < count)
    (never : storage.files.files[
      storage.files.getAbsolutePath session.filename]? = none)
    (permitted : permits .truncate
      (storage.files.getAbsolutePath session.filename) = true)
    {reading : Storage}
    (meanwhile : Meanwhile permits session.filename stored reading) :
    Readable permits reading session.filename client.localFile := by
  have nonempty : Content.chunks client.localFile
      maxFragmentContentLen.toNat count ≠ [] := by
    rw [← List.length_pos_iff, Content.length_chunks]
    exact counts
  have namesStored := accepted.names names
  have path := SharingFileManager.getAbsolutePath_congr
    ((meanwhile.sharingPath namesStored).trans (accepted.sharingPath names))
  have pathStored := SharingFileManager.getAbsolutePath_congr
    (accepted.sharingPath names)
  have shown := accepted.shown names (fullBeforeLast_fragments below)
  have kept := meanwhile.shown namesStored
  refine ⟨?_, ?_, ?_⟩
  · rw [path]
    exact meanwhile.fileExists namesStored
      (accepted.stored names nonempty).2
  · rw [pathStored] at kept
    rw [path, kept, shown, SharingFileManager.shown_of_absent never,
      Content.flatten_chunks_of_le (le_mul_fragmentLen above)]
    simp
  · rw [path]
    exact permitted

/-- The node opens a session that covers the file of the upload, where the
number of its fragments is counted right. -/
theorem getSession_of_readable {storage : Storage} {filename : Text}
    {content : List UInt8}
    (readable : Readable permits storage filename content)
    (below : ((count : Int) - 1) * maxFragmentContentLen < content.length)
    (above : content.length ≤ count * maxFragmentContentLen)
    (fits : count * maxFragmentContentLen < 2 ^ 31)
    (counts : 0 < count) (counted : CountsFragments content.length)
    (keyed : storage.sessions.Keyed)
    (unused : storage.sessions.findSessionOf filename = none)
    (allowed : permits .read
      (storage.files.getAbsolutePath filename) = true) :
    let reader : FileSession :=
      { sessionId := storage.sessions.nextId, filename := filename
        maxFragment := count }
    getSession permits filename storage =
      (.ok reader,
        { storage with sessions := storage.sessions.register reader }) := by
  rw [maxFragmentContentLen] at below above fits
  have found := SharingFileManager.stored_of_shown readable.exist (by
    rw [readable.shown, ← List.length_pos_iff]
    omega)
  rw [readable.shown] at found
  have number : maxFragmentOf content.length maxFragmentContentLen =
      count := by
    have fewest := (fewestFragments_maxFragmentOf (by omega)).mpr counted
    rw [fewestFragments_iff] at fewest
    rw [fewest]
    omega
  have got := getSession_of_found keyed unused found allowed
  rw [number] at got
  exact got

end StoringAndReading

section Upload

variable {sharingPath : Text} {files : Table Text (List UInt8)}
  {storage : Storage} {session : FileSession}

/-- The fragments that an upload has sent and those that it is taken up again
with are accepted one after another. -/
theorem accepted_of_resumed
    (reachable : (nodeMachine permits sharingPath files).Reachable storage)
    (registered : storage.sessions.findSession session.sessionId =
      some session)
    {client : Client.FileSession} {count sent : Nat}
    (nodeTotal : session.maxFragment = count)
    (clientTotal : client.maxFragment = count)
    (fits : count * maxFragmentContentLen < 2 ^ 31)
    (stopped : sent ≤ count)
    (permitted : permits .truncate
      (storage.files.getAbsolutePath session.filename) = true) :
    ∃ stored,
      putAll permits ((Client.resumedUpload client sent).map
        (forwarded session.sessionId)) storage = (.ok (), stored) ∧
      Accepted permits session storage
        (Content.chunks client.localFile maxFragmentContentLen.toNat count)
        stored ∧
      (0 < count →
        stored.sessions.findSessionOf session.filename = none) := by
  have names := names_of_reachable reachable registered
  obtain ⟨stored, put, accepted, -, ends⟩ := putAll_accepted names
    (sessions_of_reachable reachable).2 registered nodeTotal fits permitted
    client (Nat.le_refl count)
  refine ⟨stored, ?_, accepted, ends rfl⟩
  rw [Client.resumedUpload_eq clientTotal stopped, List.map_map]
  exact put

end Upload

/-- Whatever a content is cut into full fragments and a last one, and
wherever the upload stops and is taken up again: a node that never stored the
name accepts all fragments, and later returns the same fragments through any
session on the name that covers them, whatever it was asked for in between
that puts nothing to the file. -/
theorem download_of_upload
    {sharingPath : Text} {files : Table Text (List UInt8)}
    {storage : Storage}
    (reachable : (nodeMachine permits sharingPath files).Reachable storage)
    {session : FileSession}
    (registered : storage.sessions.findSession session.sessionId =
      some session)
    (client : Client.FileSession) (count sent : Nat)
    (nodeTotal : session.maxFragment = count)
    (clientTotal : client.maxFragment = count)
    (below : ((count : Int) - 1) * maxFragmentContentLen <
      client.localFile.length)
    (above : client.localFile.length ≤ count * maxFragmentContentLen)
    (fits : count * maxFragmentContentLen < 2 ^ 31)
    (stopped : sent ≤ count)
    (never : storage.files.files[
      storage.files.getAbsolutePath session.filename]? = none)
    (permitted : permits .truncate
      (storage.files.getAbsolutePath session.filename) = true) :
    ∃ stored,
      putAll permits ((Client.resumedUpload client sent).map
        (forwarded session.sessionId)) storage = (.ok (), stored) ∧
      ∀ reading reader, Meanwhile permits session.filename stored reading →
        reading.sessions.findSession reader.sessionId = some reader →
        reader.filename = session.filename → count ≤ reader.maxFragment →
        ∃ fragments later,
          getAll permits (getRequests reader.sessionId count) reading =
            (.ok fragments, later) ∧
          fragments.flatten = client.localFile ∧
          fragments.length = count ∧
          Content.FullBeforeLast maxFragmentContentLen.toNat fragments := by
  have names := names_of_reachable reachable registered
  obtain ⟨stored, put, accepted, -⟩ := accepted_of_resumed reachable
    registered nodeTotal clientTotal fits stopped permitted
  refine ⟨stored, put, ?_⟩
  intro reading reader meanwhile foundReader sameName covers
  rcases Nat.eq_zero_or_pos count with rfl | counts
  · have empty : client.localFile = [] :=
      List.eq_nil_of_length_eq_zero (by omega)
    exact ⟨[], reading, rfl, empty.symm, rfl,
      by simp [Content.FullBeforeLast]⟩
  · have readable := readable_of_accepted names accepted below above counts
      never permitted meanwhile
    rw [← sameName] at readable
    obtain ⟨later, got, -, -⟩ := getAll_chunks readable foundReader covers
      fits (Nat.le_refl count)
    exact ⟨_, later, got,
      Content.flatten_chunks_of_le (le_mul_fragmentLen above),
      Content.length_chunks _ _ _, fullBeforeLast_fragments below⟩

section NewSession

variable {sharingPath : Text} {files : Table Text (List UInt8)}
  {storage : Storage}
  (reachable : (nodeMachine permits sharingPath files).Reachable storage)
  {session : FileSession}
  (registered : storage.sessions.findSession session.sessionId =
    some session)
  (client : Client.FileSession) (count sent : Nat)
  (nodeTotal : session.maxFragment = count)
  (clientTotal : client.maxFragment = count)
  (below : ((count : Int) - 1) * maxFragmentContentLen <
    client.localFile.length)
  (above : client.localFile.length ≤ count * maxFragmentContentLen)
  (fits : count * maxFragmentContentLen < 2 ^ 31)
  (stopped : sent ≤ count) (counts : 0 < count)
  (counted : CountsFragments client.localFile.length)
  (never : storage.files.files[
    storage.files.getAbsolutePath session.filename]? = none)
  (permitted : permits .truncate
    (storage.files.getAbsolutePath session.filename) = true)
  (allowed : permits .read
    (storage.files.getAbsolutePath session.filename) = true)

include reachable registered nodeTotal clientTotal below above fits stopped
  counts counted never permitted allowed

/-- After an upload its file is without a session, and the next one that is
asked for is new and covers the whole file. -/
theorem newSession_of_upload {stored : Storage}
    (put : putAll permits ((Client.resumedUpload client sent).map
      (forwarded session.sessionId)) storage = (.ok (), stored)) :
    stored.sessions.findSessionOf session.filename = none ∧
      ∀ asked, Meanwhile permits session.filename stored asked →
        asked.sessions.findSessionOf session.filename = none →
        ∃ reader reading,
          getSession permits session.filename asked =
            (.ok reader, reading) ∧
          reader.filename = session.filename ∧
          reader.maxFragment = count ∧
          reading.sessions.findSession reader.sessionId = some reader ∧
          Meanwhile permits session.filename stored reading := by
  have names := names_of_reachable reachable registered
  obtain ⟨later, same, accepted, free⟩ := accepted_of_resumed reachable
    registered nodeTotal clientTotal fits stopped permitted
  rw [put] at same
  cases same
  refine ⟨free counts, ?_⟩
  intro asked meanwhile unused
  have namesStored := accepted.names names
  have path := SharingFileManager.getAbsolutePath_congr
    ((meanwhile.sharingPath namesStored).trans (accepted.sharingPath names))
  rw [← path] at allowed
  have got := getSession_of_readable
    (readable_of_accepted names accepted below above counts never permitted
      meanwhile)
    below above fits counts counted (meanwhile.names namesStored).keyed
    unused allowed
  have next := meanwhile.next (.getFileSession session.filename) id
  rw [Storage.next, Action.after, got] at next
  exact ⟨_, _, got, rfl, rfl,
    FileSessionManager.findSession_register_self _, next⟩

/-- The session that the node opens for an uploaded file whose fragments are
counted right returns the whole file. -/
theorem download_of_newSession :
    ∃ stored,
      putAll permits ((Client.resumedUpload client sent).map
        (forwarded session.sessionId)) storage = (.ok (), stored) ∧
      stored.sessions.findSessionOf session.filename = none ∧
      ∀ asked, Meanwhile permits session.filename stored asked →
        asked.sessions.findSessionOf session.filename = none →
        ∃ reader reading fragments later,
          getSession permits session.filename asked =
            (.ok reader, reading) ∧
          reader.maxFragment = count ∧
          getAll permits (getRequests reader.sessionId count) reading =
            (.ok fragments, later) ∧
          fragments.flatten = client.localFile := by
  have names := names_of_reachable reachable registered
  obtain ⟨stored, put, accepted, -⟩ := accepted_of_resumed reachable
    registered nodeTotal clientTotal fits stopped permitted
  obtain ⟨free, opens⟩ := newSession_of_upload reachable registered client
    count sent nodeTotal clientTotal below above fits stopped counts counted
    never permitted allowed put
  refine ⟨stored, put, free, ?_⟩
  intro asked meanwhile unused
  obtain ⟨reader, reading, got, sameName, number, found, since⟩ :=
    opens asked meanwhile unused
  have readable := readable_of_accepted names accepted below above counts
    never permitted since
  rw [← sameName] at readable
  obtain ⟨later, read, -, -⟩ := getAll_chunks readable found number.ge fits
    (Nat.le_refl count)
  exact ⟨reader, reading, _, later, got, number, read,
    Content.flatten_chunks_of_le (le_mul_fragmentLen above)⟩

end NewSession

/-- A client with a file of one byte more than a fragment. -/
def twoFragmentClient : Client.FileSession where
  sessionId := 9
  localFile := List.replicate 50001 7
  maxFragment := 2

/-- The node that it uploads to. -/
def askedCalls : List NodeCall :=
  [.putFileSession { filePath := ['f'], maxFragment := 2 }]

def askedStorage : Storage :=
  askedCalls.foldl (·.next (fun _ _ => true) ·) (Storage.init ['d'] ∅)

/-- The upload is stopped after the first fragment and taken up again, and
the file is downloaded through the session that the node opens next. -/
theorem download_of_upload_twoFragments :
    ∃ stored reader reading fragments later,
      putAll (fun _ _ => true)
        ((Client.resumedUpload twoFragmentClient 1).map (forwarded 1))
        askedStorage = (.ok (), stored) ∧
      getSession (fun _ _ => true) ['f'] stored = (.ok reader, reading) ∧
      reader.maxFragment = 2 ∧
      getAll (fun _ _ => true) (getRequests reader.sessionId 2) reading =
        (.ok fragments, later) ∧
      fragments.flatten = List.replicate 50001 7 ∧
      fragments.length = 2 ∧
      Content.FullBeforeLast maxFragmentContentLen.toNat fragments := by
  have reachable : (nodeMachine (fun _ _ => true) ['d'] ∅).Reachable
      askedStorage := ⟨askedCalls, rfl⟩
  have length : twoFragmentClient.localFile.length = 50001 :=
    List.length_replicate
  have registered : askedStorage.sessions.findSession
      (FileSession.mk 1 ['f'] 2).sessionId = some ⟨1, ['f'], 2⟩ := by
    decide +kernel
  have below : (((2 : Nat) : Int) - 1) * maxFragmentContentLen <
      twoFragmentClient.localFile.length := by
    rw [length]
    decide
  have above : (twoFragmentClient.localFile.length : Int) ≤
      (2 : Nat) * maxFragmentContentLen := by
    rw [length]
    decide
  have never : askedStorage.files.files[
      askedStorage.files.getAbsolutePath ['f']]? = none := by
    decide +kernel
  have counted : CountsFragments twoFragmentClient.localFile.length :=
    countsFragments_of_le (by rw [length]; decide)
  obtain ⟨stored, put, downloads⟩ := download_of_upload reachable registered
    twoFragmentClient 2 1 rfl rfl below above (by decide) (by decide) never
    rfl
  obtain ⟨free, opens⟩ := newSession_of_upload reachable registered
    twoFragmentClient 2 1 rfl rfl below above (by decide) (by decide)
    (by decide) counted never rfl rfl put
  obtain ⟨reader, reading, got, sameName, number, found, since⟩ :=
    opens stored (.refl stored) free
  obtain ⟨fragments, later, read, whole, two, full⟩ :=
    downloads reading reader since found sameName number.ge
  exact ⟨stored, reader, reading, fragments, later, put, got, number, read,
    whole, two, full⟩

end System
end Spaceless
