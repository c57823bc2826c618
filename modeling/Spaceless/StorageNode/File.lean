import Spaceless.Logic.Action
import Spaceless.Logic.Content
import Spaceless.Logic.Table
import Spaceless.StorageNode.Error

/-!
# Stored files and their streams

`SharingFileManager` keeps one stream for each path that was used since the
process started; the stream is opened at the first use, to read or to write,
with the mode `wb+`.  A stream has one position for reading and writing.
Different paths name different files, and a stream shows at once what was
written through it: buffering is not modelled.
-/

namespace Spaceless
namespace StorageNode

open Logic Foundation

/-- The modes that the code calls `fopen` with: `r`, and `wb+`, which makes
the file empty. -/
inductive FileMode
  | read
  | truncate
  deriving DecidableEq

/-- A stream on the file of its path. -/
structure FileStream where
  position : Nat
  deriving DecidableEq

/-- `FileStream::seek` from the beginning; `fseek` refuses a negative
offset and moves nothing. -/
def FileStream.seek (stream : FileStream) (startPos : Int) : FileStream :=
  if 0 ≤ startPos then { position := startPos.toNat } else stream

theorem FileStream.seek_of_nonneg {stream : FileStream} {startPos : Int}
    (nonneg : 0 ≤ startPos) :
    stream.seek startPos = { position := startPos.toNat } :=
  if_pos nonneg

theorem FileStream.seek_of_neg {stream : FileStream} {startPos : Int}
    (negative : startPos < 0) : stream.seek startPos = stream :=
  if_neg (by omega)

/-- The stored files by absolute path, and `m_file_cache`.  The process
removes no file, so a cached stream has its file. -/
structure SharingFileManager where
  sharingPath : Text
  files : Table Text (List UInt8)
  fileCache : Table Text FileStream
  stored : ∀ (path : Text) (stream : FileStream),
    fileCache[path]? = some stream → ∃ content, files[path]? = some content
  deriving DecidableEq

namespace SharingFileManager

/-- The manager of a process that just started on the stored files. -/
def init (sharingPath : Text) (files : Table Text (List UInt8)) :
    SharingFileManager where
  sharingPath := sharingPath
  files := files
  fileCache := ∅
  stored := by simp

def getAbsolutePath (manager : SharingFileManager) (path : Text) : Text :=
  manager.sharingPath ++ '/' :: path

def fileExists (manager : SharingFileManager) (path : Text) : Bool :=
  manager.files[path]?.isSome

/-- The bytes of a stored file. -/
def contentOf (manager : SharingFileManager) (path : Text) : List UInt8 :=
  manager.files[path]?.getD []

/-- Store the content of a file and the stream on it. -/
def store (manager : SharingFileManager) (path : Text)
    (content : List UInt8) (stream : FileStream) : SharingFileManager where
  sharingPath := manager.sharingPath
  files := manager.files.insert path content
  fileCache := manager.fileCache.insert path stream
  stored := by
    intro other otherStream cached
    by_cases same : path = other
    · subst same
      exact ⟨content, Table.lookup_insert_self manager.files path content⟩
    · rw [Table.lookup_insert_of_ne _ _ same] at cached
      rw [Table.lookup_insert_of_ne _ _ same]
      exact manager.stored other otherStream cached

/-- `fopen` with the mode `wb+`. -/
def openTruncated (manager : SharingFileManager) (path : Text) :
    SharingFileManager :=
  manager.store path [] { position := 0 }

/-- `FileStream::write`. -/
def write (manager : SharingFileManager) (path : Text)
    (stream : FileStream) (bytes : List UInt8) : SharingFileManager :=
  manager.store path
    (Content.writeAt 0 (manager.contentOf path) stream.position bytes)
    { position := stream.position + bytes.length }

/-- The stream after `FileStream::read` of that many bytes. -/
def skip (manager : SharingFileManager) (path : Text)
    (stream : FileStream) (length : Nat) : SharingFileManager :=
  manager.store path (manager.contentOf path)
    { position := stream.position + length }

section Operations

-- whether `fopen` can open the path, apart from a missing file to read
variable (permits : FileMode → Text → Bool)

def getFileStream (path : Text) :
    Action Fault SharingFileManager FileStream := do
  let cached ← Action.read fun manager => manager.fileCache[path]?
  match cached with
  | some stream => pure stream
  | none =>
      Action.throwIf (permits .truncate path = false)
        (.exception .openFileError)
      Action.modify fun manager => manager.openTruncated path
      pure { position := 0 }

/-- The flush of a last fragment changes nothing here. -/
def putFile (filename : Text) (fileContent : List UInt8) (startPos : Int) :
    Action Fault SharingFileManager Unit := do
  let path ← Action.read fun manager => manager.getAbsolutePath filename
  let file ← getFileStream permits path
  Action.modify fun manager =>
    manager.write path (file.seek startPos) fileContent

/-- The bytes that `get_file` reads into a buffer of the given length. -/
def getFile (filename : Text) (length : Nat) (startPos : Int) :
    Action Fault SharingFileManager (List UInt8) := do
  let path ← Action.read fun manager => manager.getAbsolutePath filename
  let exist ← Action.read fun manager => manager.fileExists path
  Action.throwIf (exist = false) ErrorCode.errFileNotExist.fault
  let file ← getFileStream permits path
  let position := (file.seek startPos).position
  let bytes ← Action.read fun manager =>
    Content.readAt (manager.contentOf path) position length
  Action.modify fun manager =>
    manager.skip path { position := position } bytes.length
  pure bytes

end Operations

end SharingFileManager

end StorageNode
end Spaceless
