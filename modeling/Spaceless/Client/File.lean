import Spaceless.Logic.Chunk
import Spaceless.Protocol.Message

/-!
# The upload loop of the client

`SharingFileManager::start_put_file` reads the local file fragment by
fragment and sends each one, from the fragment that the server asks for.
-/

namespace Spaceless
namespace Client

open Logic Protocol

/-- What `start_put_file` reads of `m_put_session`; the local file stands for
its path. -/
structure FileSession where
  sessionId : Int
  localFile : List UInt8
  maxFragment : Int
  deriving DecidableEq

/-- One round of the loop.  The server counts fragments from zero, so the
position that is sought is not negative. -/
def putFileRequest (session : FileSession) (fragmentIndex : Int) :
    ReqPutFile where
  sessionId := session.sessionId
  fragmentIndex := fragmentIndex
  fragmentContent := Content.readAt session.localFile
    (fragmentIndex * maxFragmentContentLen).toNat maxFragmentContentLen.toNat

/-- The requests that `start_put_file` sends. -/
def startPutFile (session : FileSession) (nextFragment : Int) :
    List ReqPutFile :=
  (List.range (session.maxFragment - nextFragment).toNat).map
    fun round : Nat => putFileRequest session (nextFragment + round)

/-- The requests of an upload that stops after some fragments and is taken up
again at the next one. -/
def resumedUpload (session : FileSession) (sent : Nat) : List ReqPutFile :=
  (startPutFile session 0).take sent ++ startPutFile session sent

theorem putFileRequest_content (session : FileSession) (index : Nat) :
    (putFileRequest session index).fragmentContent =
      Content.chunk session.localFile maxFragmentContentLen.toNat index := by
  have position : ((index : Int) * maxFragmentContentLen).toNat =
      index * maxFragmentContentLen.toNat := by
    change (index * 50000 : Int).toNat = index * 50000
    omega
  rw [putFileRequest, Content.chunk, position]

/-- An upload that is taken up where it stopped sends every fragment once, in
order. -/
theorem resumedUpload_eq {session : FileSession} {count sent : Nat}
    (total : session.maxFragment = count) (stopped : sent ≤ count) :
    resumedUpload session sent =
      (List.range count).map fun index : Nat =>
        putFileRequest session index := by
  obtain ⟨rest, rfl⟩ := Nat.exists_eq_add_of_le stopped
  have first : (session.maxFragment - 0).toNat = sent + rest := by
    omega
  have second : (session.maxFragment - sent).toNat = rest := by
    omega
  have length : ((List.range sent).map fun round : Nat =>
      putFileRequest session (0 + round)).length = sent := by
    simp
  rw [resumedUpload, startPutFile, startPutFile, first, second,
    List.range_add, List.map_append, List.map_append,
    List.take_left' length]
  simp [Function.comp_def]

end Client
end Spaceless
