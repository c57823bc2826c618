import Spaceless.Logic.Chunk
import Spaceless.StorageNode.Storage

/-!
# What a file shows through its stream

The first use of a path empties its file, so a path has the content that its
stream shows: what is stored, when there is a stream, and nothing before.
Puts write into that content, reads return a part of it, and neither touches
what other paths show.
-/

namespace Spaceless
namespace StorageNode
namespace SharingFileManager

open Logic Foundation

variable {permits : FileMode → Text → Bool}
  {manager later : SharingFileManager} {filename : Text} {startPos : Int}

theorem getAbsolutePath_inj {first second : Text} :
    manager.getAbsolutePath first = manager.getAbsolutePath second ↔
      first = second := by
  simp [getAbsolutePath]

theorem getAbsolutePath_congr
    (same : later.sharingPath = manager.sharingPath) :
    later.getAbsolutePath = manager.getAbsolutePath := by
  funext path
  rw [getAbsolutePath, getAbsolutePath, same]

/-- There is a stream on the file, or one can be opened. -/
def Opens (permits : FileMode → Text → Bool) (manager : SharingFileManager)
    (path : Text) : Prop :=
  manager.fileCache[path]?.isSome = true ∨ permits .truncate path = true

/-- The content of a file as its stream shows it. -/
def shown (manager : SharingFileManager) (path : Text) : List UInt8 :=
  if manager.fileCache[path]?.isSome then manager.contentOf path else []

theorem shown_of_cached {path : Text} {stream : FileStream}
    (cached : manager.fileCache[path]? = some stream) :
    manager.shown path = manager.contentOf path := by
  rw [shown, cached, Option.isSome_some, if_pos rfl]

theorem shown_of_fresh {path : Text}
    (fresh : manager.fileCache[path]? = none) : manager.shown path = [] := by
  rw [shown, fresh, Option.isSome_none, if_neg Bool.false_ne_true]

/-- A stream that shows something shows what is stored. -/
theorem stored_of_shown {path : Text} (exist : manager.fileExists path = true)
    (some_ : manager.shown path ≠ []) :
    manager.files[path]? = some (manager.shown path) := by
  obtain ⟨content, stored⟩ := Option.isSome_iff_exists.mp exist
  cases cached : manager.fileCache[path]? with
  | none => exact absurd (shown_of_fresh cached) some_
  | some stream =>
      rw [shown_of_cached cached, contentOf, stored, Option.getD_some]

/-- A path that is not stored shows nothing. -/
theorem shown_of_absent {path : Text}
    (absent : manager.files[path]? = none) : manager.shown path = [] := by
  cases cached : manager.fileCache[path]? with
  | none => exact shown_of_fresh cached
  | some stream =>
      obtain ⟨content, stored⟩ := manager.stored path stream cached
      rw [absent] at stored
      cases stored

theorem shown_store (path other : Text) (content : List UInt8)
    (stream : FileStream) :
    (manager.store path content stream).shown other =
      if path = other then content else manager.shown other := by
  by_cases same : path = other
  · subst same
    rw [if_pos rfl, shown_of_cached
      (Table.lookup_insert_self manager.fileCache path stream),
      contentOf_store]
  · simp only [shown, contentOf, store, if_neg same,
      Table.lookup_insert_of_ne _ _ same]

/-- Getting the stream of a path changes what no path shows. -/
theorem shown_getFileStream {path : Text} {stream : FileStream}
    (got : getFileStream permits path manager = (.ok stream, later))
    (other : Text) : later.shown other = manager.shown other := by
  rcases getFileStream_cases permits manager path with
    ⟨cached, _, outcome⟩ | ⟨fresh, _, outcome⟩ | ⟨_, _, outcome⟩ <;>
    rw [outcome] at got <;> cases got
  · rfl
  · rw [openTruncated, shown_store]
    split
    · rename_i same
      rw [← same, shown_of_fresh fresh]
    · rfl

/-- Once there is a stream, the content of the path is what it shows. -/
theorem contentOf_getFileStream {path : Text} {stream : FileStream}
    (got : getFileStream permits path manager = (.ok stream, later)) :
    later.contentOf path = manager.shown path := by
  rcases getFileStream_cases permits manager path with
    ⟨cached, bound, outcome⟩ | ⟨fresh, _, outcome⟩ | ⟨_, _, outcome⟩ <;>
    rw [outcome] at got <;> cases got
  · exact (shown_of_cached bound).symm
  · rw [shown_of_fresh fresh, openTruncated, contentOf_store]

/-- A stream comes from the cache or is opened, or there is none. -/
theorem getFileStream_opens (permits : FileMode → Text → Bool)
    (manager : SharingFileManager) (path : Text) :
    (Opens permits manager path ∧ ∃ stream opened,
      getFileStream permits path manager = (.ok stream, opened)) ∨
    ¬Opens permits manager path ∧
      getFileStream permits path manager =
        (.error (.exception .openFileError), manager) := by
  rcases getFileStream_cases permits manager path with
    ⟨stream, cached, outcome⟩ | ⟨fresh, permitted, outcome⟩ |
      ⟨fresh, refused, outcome⟩
  · exact Or.inl ⟨Or.inl (by rw [cached]; rfl), _, _, outcome⟩
  · exact Or.inl ⟨Or.inr permitted, _, _, outcome⟩
  · exact Or.inr ⟨by simp [Opens, fresh, refused], outcome⟩

theorem sharingPath_getFileStream {path : Text} {stream : FileStream}
    (got : getFileStream permits path manager = (.ok stream, later)) :
    later.sharingPath = manager.sharingPath := by
  rcases getFileStream_cases permits manager path with
    ⟨cached, bound, outcome⟩ | ⟨fresh, _, outcome⟩ | ⟨_, _, outcome⟩ <;>
    rw [outcome] at got <;> cases got <;> rfl

/-! ## Putting and getting -/

/-- A put writes through a stream, or changes nothing. -/
theorem putFile_cases (permits : FileMode → Text → Bool)
    (manager : SharingFileManager) (filename : Text)
    (fileContent : List UInt8) (startPos : Int) :
    (Opens permits manager (manager.getAbsolutePath filename) ∧
      ∃ stream opened,
        getFileStream permits (manager.getAbsolutePath filename) manager =
          (.ok stream, opened) ∧
        putFile permits filename fileContent startPos manager =
          (.ok (), opened.write (manager.getAbsolutePath filename)
            (stream.seek startPos) fileContent)) ∨
    ¬Opens permits manager (manager.getAbsolutePath filename) ∧
      putFile permits filename fileContent startPos manager =
        (.error (.exception .openFileError), manager) := by
  rcases getFileStream_opens permits manager
    (manager.getAbsolutePath filename) with
    ⟨opens, stream, opened, got⟩ | ⟨shut, got⟩
  · exact Or.inl ⟨opens, stream, opened, got, putFile_of_stream got⟩
  · exact Or.inr ⟨shut, putFile_of_refused got⟩

/-- A put that succeeds writes into what the path showed. -/
theorem shown_putFile {fileContent : List UInt8}
    (put : putFile permits filename fileContent startPos manager =
      (.ok (), later))
    (nonneg : 0 ≤ startPos) (other : Text) :
    later.shown other =
      if manager.getAbsolutePath filename = other then
        Content.writeAt 0 (manager.shown other) startPos.toNat fileContent
      else manager.shown other := by
  rcases putFile_cases permits manager filename fileContent startPos with
    ⟨_, stream, opened, got, outcome⟩ | ⟨_, outcome⟩ <;>
    rw [outcome] at put <;> cases put
  rw [write, shown_store, contentOf_getFileStream got,
    FileStream.seek_of_nonneg nonneg, shown_getFileStream got]
  split
  · rename_i same
    rw [same]
  · rfl

/-- A put changes only what its own path shows, and nothing when it fails. -/
theorem shown_putFile_other {fileContent : List UInt8}
    {result : Except Fault Unit}
    (put : putFile permits filename fileContent startPos manager =
      (result, later)) {other : Text}
    (apart : result = .ok () → manager.getAbsolutePath filename ≠ other) :
    later.shown other = manager.shown other := by
  rcases putFile_cases permits manager filename fileContent startPos with
    ⟨_, stream, opened, got, outcome⟩ | ⟨_, outcome⟩ <;>
    rw [outcome] at put <;> cases put
  · rw [write, shown_store, if_neg (apart rfl), shown_getFileStream got]
  · rfl

/-- After a put there is a stream on the file. -/
theorem contentOf_putFile {fileContent : List UInt8}
    (put : putFile permits filename fileContent startPos manager =
      (.ok (), later)) :
    later.contentOf (manager.getAbsolutePath filename) =
      later.shown (manager.getAbsolutePath filename) := by
  rcases putFile_cases permits manager filename fileContent startPos with
    ⟨_, stream, opened, got, outcome⟩ | ⟨_, outcome⟩ <;>
    rw [outcome] at put <;> cases put
  rw [write, shown_store, if_pos rfl, contentOf_store]

theorem sharingPath_putFile {fileContent : List UInt8}
    {result : Except Fault Unit}
    (put : putFile permits filename fileContent startPos manager =
      (result, later)) : later.sharingPath = manager.sharingPath := by
  rcases putFile_cases permits manager filename fileContent startPos with
    ⟨_, stream, opened, got, outcome⟩ | ⟨_, outcome⟩ <;>
    rw [outcome] at put <;> cases put
  · have same := sharingPath_getFileStream got
    exact same
  · rfl

/-- A read goes through a stream, or changes nothing. -/
theorem getFile_cases (permits : FileMode → Text → Bool)
    (manager : SharingFileManager) (filename : Text) (length : Nat)
    (startPos : Int) :
    ((manager.fileExists (manager.getAbsolutePath filename) = true ∧
        Opens permits manager (manager.getAbsolutePath filename)) ∧
      ∃ stream opened,
        getFileStream permits (manager.getAbsolutePath filename) manager =
          (.ok stream, opened) ∧
        getFile permits filename length startPos manager =
          let bytes := Content.readAt
            (opened.contentOf (manager.getAbsolutePath filename))
            (stream.seek startPos).position length
          (.ok bytes, opened.skip (manager.getAbsolutePath filename)
            { position := (stream.seek startPos).position }
            bytes.length)) ∨
    ¬(manager.fileExists (manager.getAbsolutePath filename) = true ∧
        Opens permits manager (manager.getAbsolutePath filename)) ∧
      ∃ fault, (fault = ErrorCode.errFileNotExist.fault ∨
          fault = .exception .openFileError) ∧
        getFile permits filename length startPos manager =
          (.error fault, manager) := by
  cases exist : manager.files[manager.getAbsolutePath filename]? with
  | none =>
      refine Or.inr ⟨?_, _, Or.inl rfl, getFile_of_absent exist⟩
      rw [fileExists_of_absent exist]
      exact fun both => Bool.false_ne_true both.1
  | some content =>
      rcases getFileStream_opens permits manager
        (manager.getAbsolutePath filename) with
        ⟨opens, stream, opened, got⟩ | ⟨shut, got⟩
      · exact Or.inl ⟨⟨fileExists_of_stored exist, opens⟩, stream, opened,
          got, getFile_of_stream exist got⟩
      · exact Or.inr ⟨fun both => shut both.2, _, Or.inr rfl,
          getFile_of_refused exist got⟩

/-- A read returns a part of what the path shows. -/
theorem bytes_getFile {bytes : List UInt8} {length : Nat}
    (read : getFile permits filename length startPos manager =
      (.ok bytes, later))
    (nonneg : 0 ≤ startPos) :
    bytes = Content.readAt
      (manager.shown (manager.getAbsolutePath filename)) startPos.toNat
      length := by
  rcases getFile_cases permits manager filename length startPos with
    ⟨_, stream, opened, got, outcome⟩ | ⟨_, fault, _, outcome⟩ <;>
    rw [outcome] at read <;> cases read
  rw [contentOf_getFileStream got, FileStream.seek_of_nonneg nonneg]

/-- A read changes what no path shows. -/
theorem shown_getFile {length : Nat} {result : Except Fault (List UInt8)}
    (read : getFile permits filename length startPos manager =
      (result, later))
    (other : Text) : later.shown other = manager.shown other := by
  rcases getFile_cases permits manager filename length startPos with
    ⟨_, stream, opened, got, outcome⟩ | ⟨_, fault, _, outcome⟩ <;>
    rw [outcome] at read <;> cases read
  · rw [skip, shown_store, contentOf_getFileStream got,
      shown_getFileStream got]
    split
    · rename_i same
      rw [same]
    · rfl
  · rfl

theorem sharingPath_getFile {length : Nat}
    {result : Except Fault (List UInt8)}
    (read : getFile permits filename length startPos manager =
      (result, later)) : later.sharingPath = manager.sharingPath := by
  rcases getFile_cases permits manager filename length startPos with
    ⟨_, stream, opened, got, outcome⟩ | ⟨_, fault, _, outcome⟩ <;>
    rw [outcome] at read <;> cases read
  · have same := sharingPath_getFileStream got
    exact same
  · rfl

/-! ## Files stay -/

theorem fileExists_store {path other : Text}
    (exist : path = other ∨ manager.fileExists other = true)
    (content : List UInt8) (stream : FileStream) :
    (manager.store path content stream).fileExists other = true := by
  by_cases same : path = other
  · subst same
    exact fileExists_of_stored (Table.lookup_insert_self ..)
  · rw [fileExists, store_files, Table.lookup_insert_of_ne _ _ same]
    exact exist.resolve_left same

theorem fileExists_getFileStream {path other : Text} {stream : FileStream}
    (got : getFileStream permits path manager = (.ok stream, later))
    (exist : manager.fileExists other = true) :
    later.fileExists other = true := by
  rcases getFileStream_cases permits manager path with
    ⟨cached, bound, outcome⟩ | ⟨fresh, _, outcome⟩ | ⟨_, _, outcome⟩ <;>
    rw [outcome] at got <;> cases got
  · exact exist
  · exact fileExists_store (Or.inr exist) _ _

theorem fileExists_putFile {fileContent : List UInt8}
    {result : Except Fault Unit}
    (put : putFile permits filename fileContent startPos manager =
      (result, later)) {other : Text}
    (exist : manager.fileExists other = true) :
    later.fileExists other = true := by
  rcases putFile_cases permits manager filename fileContent startPos with
    ⟨_, stream, opened, got, outcome⟩ | ⟨_, outcome⟩ <;>
    rw [outcome] at put <;> cases put
  · exact fileExists_store (Or.inr (fileExists_getFileStream got exist)) _ _
  · exact exist

/-- A put that succeeds leaves its file. -/
theorem fileExists_of_putFile {fileContent : List UInt8}
    (put : putFile permits filename fileContent startPos manager =
      (.ok (), later)) :
    later.fileExists (manager.getAbsolutePath filename) = true := by
  rcases putFile_cases permits manager filename fileContent startPos with
    ⟨_, stream, opened, got, outcome⟩ | ⟨_, outcome⟩ <;>
    rw [outcome] at put <;> cases put
  exact fileExists_store (Or.inl rfl) _ _

theorem fileExists_getFile {length : Nat}
    {result : Except Fault (List UInt8)}
    (read : getFile permits filename length startPos manager =
      (result, later)) {other : Text}
    (exist : manager.fileExists other = true) :
    later.fileExists other = true := by
  rcases getFile_cases permits manager filename length startPos with
    ⟨_, stream, opened, got, outcome⟩ | ⟨_, fault, _, outcome⟩ <;>
    rw [outcome] at read <;> cases read
  · exact fileExists_store (Or.inr (fileExists_getFileStream got exist)) _ _
  · exact exist

end SharingFileManager
end StorageNode
end Spaceless
