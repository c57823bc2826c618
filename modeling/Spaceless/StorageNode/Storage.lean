import Spaceless.StorageNode.File

/-!
# What reads and writes do to the stored files

`get_file` and `put_file` share the streams, and the first use of a path
opens its stream with `wb+`, which makes the file empty.  So a read keeps the
stored files, and a write keeps what is outside its range, only under
conditions on the cache and on what is stored.
-/

namespace Spaceless
namespace StorageNode

open Logic Foundation

namespace SharingFileManager

variable {permits : FileMode → Text → Bool} {manager : SharingFileManager}

@[simp] theorem store_files
    (path : Text) (content : List UInt8) (stream : FileStream) :
    (manager.store path content stream).files =
      manager.files.insert path content := rfl

@[simp] theorem contentOf_store
    (path : Text) (content : List UInt8) (stream : FileStream) :
    (manager.store path content stream).contentOf path = content := by
  simp [contentOf]

theorem contentOf_of_stored {path : Text} {content : List UInt8}
    (stored : manager.files[path]? = some content) :
    manager.contentOf path = content := by
  simp [contentOf, stored]

theorem fileExists_of_stored {path : Text} {content : List UInt8}
    (stored : manager.files[path]? = some content) :
    manager.fileExists path = true := by
  rw [fileExists, stored, Option.isSome_some]

theorem fileExists_of_absent {path : Text}
    (absent : manager.files[path]? = none) :
    manager.fileExists path = false := by
  rw [fileExists, absent, Option.isSome_none]

theorem skip_files {path : Text} {content : List UInt8}
    (stored : manager.files[path]? = some content)
    (stream : FileStream) (length : Nat) :
    (manager.skip path stream length).files = manager.files := by
  rw [skip, store_files, contentOf_of_stored stored]
  exact Table.insert_of_bound stored

/-! ## The stream of a path -/

theorem getFileStream_of_cached {path : Text} {stream : FileStream}
    (cached : manager.fileCache[path]? = some stream) :
    getFileStream permits path manager = (.ok stream, manager) := by
  simp [getFileStream, Action.bind_apply, cached]

theorem getFileStream_of_permitted {path : Text}
    (fresh : manager.fileCache[path]? = none)
    (permitted : permits .truncate path = true) :
    getFileStream permits path manager =
      (.ok { position := 0 }, manager.openTruncated path) := by
  simp [getFileStream, Action.bind_apply, Action.throwIf, fresh, permitted]

theorem getFileStream_of_refused {path : Text}
    (fresh : manager.fileCache[path]? = none)
    (refused : permits .truncate path = false) :
    getFileStream permits path manager =
      (.error (.exception .openFileError), manager) := by
  simp [getFileStream, Action.bind_apply, Action.throwIf, fresh, refused]

/-- The three ways to get the stream of a path: it is cached, it is opened
and the file is empty, or it cannot be opened. -/
theorem getFileStream_cases
    (permits : FileMode → Text → Bool) (manager : SharingFileManager)
    (path : Text) :
    (∃ stream, manager.fileCache[path]? = some stream ∧
      getFileStream permits path manager = (.ok stream, manager)) ∨
    (manager.fileCache[path]? = none ∧ permits .truncate path = true ∧
      getFileStream permits path manager =
        (.ok { position := 0 }, manager.openTruncated path)) ∨
    (manager.fileCache[path]? = none ∧ permits .truncate path = false ∧
      getFileStream permits path manager =
        (.error (.exception .openFileError), manager)) := by
  cases cached : manager.fileCache[path]? with
  | some stream => exact Or.inl ⟨stream, rfl, getFileStream_of_cached cached⟩
  | none =>
      cases permitted : permits .truncate path with
      | true =>
          exact Or.inr (Or.inl
            ⟨rfl, rfl, getFileStream_of_permitted cached permitted⟩)
      | false =>
          exact Or.inr (Or.inr
            ⟨rfl, rfl, getFileStream_of_refused cached permitted⟩)

theorem putFile_of_stream
    {filename : Text} {fileContent : List UInt8} {startPos : Int}
    {stream : FileStream} {opened : SharingFileManager}
    (got : getFileStream permits (manager.getAbsolutePath filename) manager =
      (.ok stream, opened)) :
    putFile permits filename fileContent startPos manager =
      (.ok (), opened.write (manager.getAbsolutePath filename)
        (stream.seek startPos) fileContent) := by
  simp [putFile, Action.bind_apply, got]

theorem putFile_of_refused
    {filename : Text} {fileContent : List UInt8} {startPos : Int}
    {fault : Fault}
    (got : getFileStream permits (manager.getAbsolutePath filename) manager =
      (.error fault, manager)) :
    putFile permits filename fileContent startPos manager =
      (.error fault, manager) := by
  simp [putFile, Action.bind_apply, got]

theorem getFile_of_absent
    {filename : Text} {length : Nat} {startPos : Int}
    (absent : manager.files[manager.getAbsolutePath filename]? = none) :
    getFile permits filename length startPos manager =
      (.error ErrorCode.errFileNotExist.fault, manager) := by
  simp [getFile, Action.bind_apply, Action.throwIf,
    fileExists_of_absent absent]

theorem getFile_of_stream
    {filename : Text} {length : Nat} {startPos : Int}
    {content : List UInt8} {stream : FileStream} {opened : SharingFileManager}
    (exist : manager.files[manager.getAbsolutePath filename]? = some content)
    (got : getFileStream permits (manager.getAbsolutePath filename) manager =
      (.ok stream, opened)) :
    getFile permits filename length startPos manager =
      let bytes := Content.readAt
        (opened.contentOf (manager.getAbsolutePath filename))
        (stream.seek startPos).position length
      (.ok bytes, opened.skip (manager.getAbsolutePath filename)
        { position := (stream.seek startPos).position } bytes.length) := by
  simp [getFile, Action.bind_apply, Action.throwIf,
    fileExists_of_stored exist, got]

theorem getFile_of_refused
    {filename : Text} {length : Nat} {startPos : Int}
    {content : List UInt8} {fault : Fault}
    (exist : manager.files[manager.getAbsolutePath filename]? = some content)
    (got : getFileStream permits (manager.getAbsolutePath filename) manager =
      (.error fault, manager)) :
    getFile permits filename length startPos manager =
      (.error fault, manager) := by
  simp [getFile, Action.bind_apply, Action.throwIf,
    fileExists_of_stored exist, got]

/-! ## Reading -/

/-- The byte at a position of a content, if there is one. -/
def byteAt (content : List UInt8) (position : Int) : Option UInt8 :=
  if 0 ≤ position then content[position.toNat]? else none

/-- The bytes of a content from a start position up to a length or the end of
the content. -/
structure IsRange (content bytes : List UInt8) (startPos : Int)
    (length : Nat) : Prop where
  count : (bytes.length : Int) =
    min (length : Int) (max 0 (content.length - startPos))
  same : ∀ index : Nat, index < bytes.length →
    bytes[index]? = byteAt content (startPos + index)

theorem isRange_readAt
    (content : List UInt8) {startPos : Int} (nonneg : 0 ≤ startPos)
    (length : Nat) :
    IsRange content (Content.readAt content startPos.toNat length)
      startPos length where
  count := by
    rw [Content.length_readAt]
    omega
  same := by
    intro index inside
    rw [Content.length_readAt] at inside
    have position : (startPos + index).toNat = startPos.toNat + index := by
      omega
    rw [Content.getElem?_readAt (by omega), byteAt, if_pos (by omega),
      position]

theorem isRange_nil (content : List UInt8) (startPos : Int) :
    IsRange content [] startPos 0 where
  count := by
    simp only [List.length_nil]
    omega
  same := by
    intro index inside
    cases inside

/-- No byte can be read at a negative position. -/
theorem IsRange.length_eq_zero
    {content bytes : List UInt8} {startPos : Int} {length : Nat}
    (range : IsRange content bytes startPos length)
    (negative : startPos < 0) : length = 0 := by
  by_contra positive
  have count := range.count
  have nonempty : 0 < bytes.length := by
    omega
  have first := range.same 0 nonempty
  rw [byteAt, if_neg (by omega), List.getElem?_eq_none_iff] at first
  omega

variable (permits manager) in
/-- `get_file` keeps the stored files and, when it does not throw, returns
the range of the file. -/
def GetsFile (filename : Text) (length : Nat) (startPos : Int) : Prop :=
  Action.Ensures (getFile permits filename length startPos) manager
    (fun bytes later =>
      later.files = manager.files ∧
        ∃ content,
          manager.files[manager.getAbsolutePath filename]? = some content ∧
          IsRange content bytes startPos length)
    (fun fault later =>
      later.files = manager.files ∧ fault ≠ .undefined)

variable (permits manager) in
/-- The file is missing or cannot be opened, or its stream is cached or it is
empty anyway and the start position is one that `fseek` accepts. -/
def ReadsInPlace (filename : Text) (length : Nat) (startPos : Int) : Prop :=
  let path := manager.getAbsolutePath filename
  manager.files[path]? = none ∨
    (manager.fileCache[path]? = none ∧ permits .truncate path = false) ∨
    ((manager.fileCache[path]?.isSome ∨ manager.files[path]? = some []) ∧
      (0 ≤ startPos ∨ length = 0))

/-- What a stream reads is the range if and only if the start position is one
that `fseek` accepts, or nothing is asked for. -/
theorem isRange_seek_iff
    (content : List UInt8) (stream : FileStream)
    (startPos : Int) (length : Nat) :
    IsRange content
        (Content.readAt content (stream.seek startPos).position length)
        startPos length ↔
      0 ≤ startPos ∨ length = 0 := by
  constructor
  · intro range
    by_cases nonneg : 0 ≤ startPos
    · exact Or.inl nonneg
    · exact Or.inr (range.length_eq_zero (by omega))
  · rintro (nonneg | rfl)
    · rw [FileStream.seek_of_nonneg nonneg]
      exact isRange_readAt content nonneg length
    · have nothing : Content.readAt content
          (stream.seek startPos).position 0 = [] := by
        simp [Content.readAt]
      rw [nothing]
      exact isRange_nil content startPos

/-- A read through a stream: the files must be as they were before the
stream was there. -/
theorem getsFile_of_stream_iff
    {filename : Text} {length : Nat} {startPos : Int}
    {content current : List UInt8} {stream : FileStream}
    {opened : SharingFileManager}
    (exist : manager.files[manager.getAbsolutePath filename]? = some content)
    (got : getFileStream permits (manager.getAbsolutePath filename) manager =
      (.ok stream, opened))
    (present : opened.files[manager.getAbsolutePath filename]? =
      some current) :
    GetsFile permits manager filename length startPos ↔
      opened.files = manager.files ∧ (0 ≤ startPos ∨ length = 0) := by
  unfold GetsFile
  rw [Action.ensures_iff_of_ok (getFile_of_stream exist got),
    skip_files present, contentOf_of_stored present, exist]
  refine and_congr_right fun sameFiles => ?_
  have same : current = content := by
    rw [sameFiles, exist] at present
    exact (Option.some.inj present).symm
  rw [same, ← isRange_seek_iff content stream startPos length]
  simp

theorem getsFile_iff_readsInPlace
    (filename : Text) (length : Nat) (startPos : Int) :
    GetsFile permits manager filename length startPos ↔
      ReadsInPlace permits manager filename length startPos := by
  unfold ReadsInPlace
  dsimp only
  cases exist : manager.files[manager.getAbsolutePath filename]? with
  | none =>
      refine iff_of_true ?_ (Or.inl rfl)
      unfold GetsFile
      rw [Action.ensures_iff_of_error (getFile_of_absent exist)]
      exact ⟨rfl, by simp [ErrorCode.fault]⟩
  | some content =>
      rcases getFileStream_cases permits manager
        (manager.getAbsolutePath filename) with
        ⟨stream, cached, got⟩ | ⟨fresh, permitted, got⟩ |
          ⟨fresh, refused, got⟩
      · rw [getsFile_of_stream_iff exist got exist, cached]
        simp
      · -- the stream was opened by emptying the file
        rw [getsFile_of_stream_iff exist got
            (Table.lookup_insert_self manager.files _ _),
          openTruncated, store_files, Table.insert_eq_self_iff, exist, fresh,
          permitted]
        simp
      · refine iff_of_true ?_ (Or.inr (Or.inl ⟨fresh, refused⟩))
        unfold GetsFile
        rw [Action.ensures_iff_of_error (getFile_of_refused exist got)]
        exact ⟨rfl, by simp⟩

/-! ## Writing -/

/-- The position is one of the range that a fragment is put to. -/
def InRange (startPos : Int) (length : Nat) (position : Nat) : Prop :=
  startPos ≤ position ∧ (position : Int) < startPos + length

instance (startPos : Int) (length position : Nat) :
    Decidable (InRange startPos length position) :=
  inferInstanceAs (Decidable (_ ∧ _))

/-- A content keeps the bytes of another one outside a range. -/
def KeepsOutside (startPos : Int) (length : Nat)
    (before after : List UInt8) : Prop :=
  ∀ index, index < before.length →
    InRange startPos length index ∨ after[index]? = before[index]?

theorem keepsOutside_refl (startPos : Int) (length : Nat)
    (content : List UInt8) :
    KeepsOutside startPos length content content :=
  fun _ _ => Or.inr rfl

variable (permits manager) in
/-- `put_file` changes no stored byte outside the range of the fragment. -/
def PutsFile (filename : Text) (fileContent : List UInt8)
    (startPos : Int) : Prop :=
  ∀ path before, manager.files[path]? = some before →
    ∃ after,
      ((putFile permits filename fileContent startPos).after
        manager).files[path]? = some after ∧
      if path = manager.getAbsolutePath filename then
        KeepsOutside startPos fileContent.length before after
      else after = before

/-- Writing a fragment at its own start position keeps what is outside. -/
theorem keepsOutside_writeAt
    (before fileContent : List UInt8) {startPos : Int}
    (nonneg : 0 ≤ startPos) :
    KeepsOutside startPos fileContent.length before
      (Content.writeAt 0 before startPos.toNat fileContent) := by
  intro index inside
  by_cases earlier : index < startPos.toNat
  · exact Or.inr (Content.writeAt_before earlier inside)
  · by_cases later : startPos.toNat + fileContent.length ≤ index
    · exact Or.inr (Content.writeAt_after later)
    · exact Or.inl ⟨by omega, by omega⟩

/-- No other file is touched. -/
theorem putFile_other
    (filename : Text) (fileContent : List UInt8) (startPos : Int)
    {path : Text} (different : manager.getAbsolutePath filename ≠ path) :
    ((putFile permits filename fileContent startPos).after
      manager).files[path]? = manager.files[path]? := by
  unfold Action.after
  rcases getFileStream_cases permits manager
    (manager.getAbsolutePath filename) with
    ⟨stream, cached, got⟩ | ⟨fresh, permitted, got⟩ | ⟨fresh, refused, got⟩
  · rw [putFile_of_stream got, write, store_files,
      Table.lookup_insert_of_ne _ _ different]
  · rw [putFile_of_stream got, write, store_files,
      Table.lookup_insert_of_ne _ _ different, openTruncated, store_files,
      Table.lookup_insert_of_ne _ _ different]
  · rw [putFile_of_refused got]

/-- A write through a stream: what it leaves of the file is compared with what
was stored before the stream was there. -/
theorem putsFile_of_stream_iff
    {filename : Text} {fileContent before : List UInt8} {startPos : Int}
    {stream : FileStream} {opened : SharingFileManager}
    (stored : manager.files[manager.getAbsolutePath filename]? = some before)
    (got : getFileStream permits (manager.getAbsolutePath filename) manager =
      (.ok stream, opened)) :
    PutsFile permits manager filename fileContent startPos ↔
      KeepsOutside startPos fileContent.length before
        (Content.writeAt 0
          (opened.contentOf (manager.getAbsolutePath filename))
          (stream.seek startPos).position fileContent) := by
  have written :
      ((putFile permits filename fileContent startPos).after
        manager).files[manager.getAbsolutePath filename]? =
      some (Content.writeAt 0
        (opened.contentOf (manager.getAbsolutePath filename))
        (stream.seek startPos).position fileContent) := by
    rw [Action.after, putFile_of_stream got, write, store_files,
      Table.lookup_insert_self]
  constructor
  · intro puts
    obtain ⟨after, found, keeps⟩ := puts _ before stored
    rw [if_pos rfl, ← Option.some.inj (written.symm.trans found)] at keeps
    exact keeps
  · intro keeps path content found
    by_cases same : manager.getAbsolutePath filename = path
    · subst same
      obtain rfl := Option.some.inj (stored.symm.trans found)
      exact ⟨_, written, by rwa [if_pos rfl]⟩
    · exact ⟨content, by rw [putFile_other _ _ _ same, found],
        by rw [if_neg (Ne.symm same)]⟩

/-- A file that is not stored has no byte to change. -/
theorem putsFile_of_absent
    {filename : Text} {fileContent : List UInt8} {startPos : Int}
    (absent : manager.files[manager.getAbsolutePath filename]? = none) :
    PutsFile permits manager filename fileContent startPos := by
  intro path content found
  have different : manager.getAbsolutePath filename ≠ path := by
    rintro rfl
    rw [absent] at found
    cases found
  exact ⟨content, by rw [putFile_other _ _ _ different, found],
    by rw [if_neg (Ne.symm different)]⟩

/-- A stream that cannot be opened writes nothing. -/
theorem putsFile_of_refused
    {filename : Text} {fileContent : List UInt8} {startPos : Int}
    {fault : Fault}
    (got : getFileStream permits (manager.getAbsolutePath filename) manager =
      (.error fault, manager)) :
    PutsFile permits manager filename fileContent startPos := by
  intro path content found
  refine ⟨content, by rw [Action.after, putFile_of_refused got, found], ?_⟩
  split
  · exact keepsOutside_refl _ _ _
  · rfl

/-- What a write through an open stream needs. -/
def WritesOver (stream : FileStream) (before fileContent : List UInt8)
    (startPos : Int) : Prop :=
  0 ≤ startPos ∨
    ∀ index, index < fileContent.length →
      stream.position + index < before.length →
      InRange startPos fileContent.length (stream.position + index) ∨
        fileContent[index]? = before[stream.position + index]?

/-- What a write needs that has emptied the file: nothing was stored that it
does not put back itself, by writing or by filling with zeros. -/
def WritesBack (before fileContent : List UInt8) (startPos : Int) : Prop :=
  if 0 ≤ startPos then
    (before.length : Int) ≤ startPos + fileContent.length ∧
      (fileContent = [] → before = []) ∧
      ∀ index : Nat, index < before.length → (index : Int) < startPos →
        before[index]? = some 0
  else
    ∀ index, index < before.length →
      InRange startPos fileContent.length index ∨
        fileContent[index]? = before[index]?

theorem keepsOutside_iff_writesOver
    (stream : FileStream) (before fileContent : List UInt8)
    (startPos : Int) :
    KeepsOutside startPos fileContent.length before
        (Content.writeAt 0 before (stream.seek startPos).position
          fileContent) ↔
      WritesOver stream before fileContent startPos := by
  by_cases nonneg : 0 ≤ startPos
  · refine iff_of_true ?_ (Or.inl nonneg)
    rw [FileStream.seek_of_nonneg nonneg]
    exact keepsOutside_writeAt before fileContent nonneg
  · rw [FileStream.seek_of_neg (by omega)]
    constructor
    · intro keeps
      refine Or.inr fun index inside stored => ?_
      rcases keeps (stream.position + index) stored with inRange | same
      · exact Or.inl inRange
      · rw [Content.writeAt_inside inside] at same
        exact Or.inr same
    · rintro (impossible | covered)
      · exact absurd impossible nonneg
      · intro index stored
        by_cases earlier : index < stream.position
        · exact Or.inr (Content.writeAt_before earlier stored)
        · by_cases later : stream.position + fileContent.length ≤ index
          · exact Or.inr (Content.writeAt_after later)
          · obtain ⟨offset, rfl⟩ :=
              Nat.exists_eq_add_of_le (Nat.le_of_not_lt earlier)
            rw [Content.writeAt_inside (by omega)]
            exact covered offset (by omega) stored

/-- A position outside the range and outside the new content was not stored. -/
theorem KeepsOutside.outside_of_none
    {startPos : Int} {length index : Nat} {before after : List UInt8}
    (keeps : KeepsOutside startPos length before after)
    (outside : ¬InRange startPos length index)
    (missing : after[index]? = none) : before.length ≤ index := by
  by_contra inside
  have same := (keeps index (by omega)).resolve_left outside
  rw [missing] at same
  exact inside (List.getElem?_eq_none_iff.mp same.symm)

theorem keepsOutside_iff_writesBack
    (before fileContent : List UInt8) (startPos : Int) :
    KeepsOutside startPos fileContent.length before
        (Content.writeAt 0 []
          (FileStream.seek { position := 0 } startPos).position
          fileContent) ↔
      WritesBack before fileContent startPos := by
  unfold WritesBack
  split
  · rename_i nonneg
    rw [FileStream.seek_of_nonneg nonneg]
    dsimp only
    constructor
    · intro keeps
      have ending : ¬InRange startPos fileContent.length
          (startPos.toNat + fileContent.length) := by
        unfold InRange
        omega
      have bounded := keeps.outside_of_none ending
        (by rw [Content.writeAt_after (Nat.le_refl _), List.getElem?_nil])
      have emptied : fileContent = [] → before = [] := by
        rintro rfl
        refine List.eq_nil_of_length_eq_zero (Nat.le_zero.mp ?_)
        exact keeps.outside_of_none
          (by simp only [InRange, List.length_nil]; omega)
          (by rw [Content.writeAt_nil, List.getElem?_nil])
      refine ⟨by omega, emptied, fun index stored earlier => ?_⟩
      have nonempty : fileContent ≠ [] := by
        intro empty
        rw [emptied empty] at stored
        cases stored
      rcases keeps index stored with inRange | same
      · exact absurd inRange.1 (by omega)
      · rw [← same]
        exact Content.writeAt_gap nonempty (by omega) (Nat.zero_le index)
    · rintro ⟨bounded, emptied, zeros⟩ index stored
      by_cases earlier : (index : Int) < startPos
      · have nonempty : fileContent ≠ [] := by
          intro empty
          rw [emptied empty] at stored
          cases stored
        rw [zeros index stored earlier]
        exact Or.inr (Content.writeAt_gap nonempty (by omega)
          (Nat.zero_le index))
      · exact Or.inl ⟨by omega, by omega⟩
  · rename_i negative
    rw [FileStream.seek_of_neg (by omega), Content.writeAt_empty]
    exact Iff.rfl

variable (permits manager) in
/-- The file is missing or cannot be opened, or the write through its cached
stream stays in the range, or the write that empties the file first puts back
all that it lost. -/
def WritesInPlace (filename : Text) (fileContent : List UInt8)
    (startPos : Int) : Prop :=
  let path := manager.getAbsolutePath filename
  match manager.files[path]?, manager.fileCache[path]? with
  | none, _ => True
  | some before, some stream => WritesOver stream before fileContent startPos
  | some before, none =>
      permits .truncate path = false ∨
        WritesBack before fileContent startPos

theorem putsFile_iff_writesInPlace
    (filename : Text) (fileContent : List UInt8) (startPos : Int) :
    PutsFile permits manager filename fileContent startPos ↔
      WritesInPlace permits manager filename fileContent startPos := by
  unfold WritesInPlace
  dsimp only
  cases stored : manager.files[manager.getAbsolutePath filename]? with
  | none => exact iff_of_true (putsFile_of_absent stored) trivial
  | some before =>
      rcases getFileStream_cases permits manager
        (manager.getAbsolutePath filename) with
        ⟨stream, cached, got⟩ | ⟨fresh, permitted, got⟩ |
          ⟨fresh, refused, got⟩
      · rw [putsFile_of_stream_iff stored got, contentOf_of_stored stored,
          cached, keepsOutside_iff_writesOver]
      · rw [putsFile_of_stream_iff stored got, openTruncated,
          contentOf_store, fresh, permitted, keepsOutside_iff_writesBack]
        simp
      · rw [fresh]
        exact iff_of_true (putsFile_of_refused got) (Or.inl refused)

/-! ## Any use of a file -/

/-- Reading keeps the stored files and returns the range, and writing keeps
what is outside its range, exactly under the two conditions. -/
theorem gets_and_puts_iff
    (permits : FileMode → Text → Bool) (manager : SharingFileManager)
    (filename : Text) (length : Nat) (fileContent : List UInt8)
    (startPos : Int) :
    (GetsFile permits manager filename length startPos ↔
      ReadsInPlace permits manager filename length startPos) ∧
    (PutsFile permits manager filename fileContent startPos ↔
      WritesInPlace permits manager filename fileContent startPos) :=
  ⟨getsFile_iff_readsInPlace filename length startPos,
    putsFile_iff_writesInPlace filename fileContent startPos⟩

/-- A node that was restarted with one stored byte. -/
def restartedManager : SharingFileManager :=
  init ['d'] ((∅ : Table Text (List UInt8)).insert ['d', '/', 'f'] [7])

/-- Reading the stored file loses its byte, and so does putting a second one
after it. -/
theorem not_gets_or_puts_restartedManager :
    ¬GetsFile (fun _ _ => true) restartedManager ['f'] 10 0 ∧
      ¬PutsFile (fun _ _ => true) restartedManager ['f'] [8] 1 := by
  constructor
  · intro gets
    have ran : getFile (fun _ _ => true) ['f'] 10 0 restartedManager =
        (.ok [], (getFile (fun _ _ => true) ['f'] 10 0
          restartedManager).2) := by
      decide +kernel
    have kept := (gets.of_ok ran).1
    exact absurd kept (by decide +kernel)
  · intro puts
    obtain ⟨after, found, keeps⟩ := puts ['d', '/', 'f'] [7]
      (by decide +kernel)
    have written :
        ((putFile (fun _ _ => true) ['f'] [8] 1).after
          restartedManager).files[['d', '/', 'f']]? = some [0, 8] := by
      decide +kernel
    rw [← Option.some.inj (written.symm.trans found),
      if_pos (by decide +kernel)] at keeps
    have lost := keeps 0 (by decide)
    exact absurd lost (by decide)

end SharingFileManager

end StorageNode
end Spaceless
