import Spaceless.ResourceServer.PathFrame

/-!
# Creating paths

The loop of `create_path` stops at an entry that is no directory before it has
made one, and below a directory that it makes it only makes directories.  It
does not look at the type of the last entry.
-/

namespace Spaceless
namespace ResourceServer

open Logic Foundation Protocol

namespace SharingFileManager

variable {files later : SharingFileManager} {roots : Int → Prop}

/-- Each initial part of the names leads to a directory. -/
def Directories (files : SharingFileManager) (first : Int)
    (path : List Text) : Prop :=
  ∀ names, names <+: path → ∃ fileId fileList, Walk files first names fileId ∧
    files.observe SharingFile.list fileId = some fileList

theorem directories_nil {first : Int} {fileList : List Int}
    (listed : files.observe SharingFile.list first = some fileList) :
    Directories files first [] := by
  intro names isPrefix
  rw [List.prefix_nil.mp isPrefix]
  exact ⟨first, fileList, .nil first, listed⟩

theorem Directories.cons {first : Int} {fileList : List Int} {dirName : Text}
    {rest : List Text}
    (listed : files.observe SharingFile.list first = some fileList)
    (valid : files.findFileIn fileList dirName ≠ invalidId)
    (directories : Directories files (files.findFileIn fileList dirName)
      rest) : Directories files first (dirName :: rest) := by
  intro names isPrefix
  cases names with
  | nil => exact ⟨first, fileList, .nil first, listed⟩
  | cons name others =>
      obtain ⟨rfl, shorter⟩ := List.cons_prefix_cons.mp isPrefix
      obtain ⟨fileId, entries, walk, directory⟩ := directories others shorter
      exact ⟨fileId, entries, .cons listed valid walk, directory⟩

theorem Extends.directories (grows : Extends files later) {first : Int}
    {path : List Text} (directories : Directories files first path) :
    Directories later first path := by
  intro names isPrefix
  obtain ⟨fileId, fileList, walk, listed⟩ := directories names isPrefix
  obtain ⟨more, longer⟩ := grows.lists fileId fileList listed
  exact ⟨fileId, fileList ++ more, grows.walk walk, longer⟩

/-- The table with an empty directory at the end of another. -/
def makeDirectory (files : SharingFileManager) (parentId : Int)
    (dirName : Text) : SharingFileManager :=
  (files.addEntry { fileName := dirName, body := .directory [] }).pushFile
    parentId files.nextId

/-! ## One round of the loop -/

section Rounds

variable {parentId : Int} {fileList : List Int} {dirName : Text}
  {rest : List Text}

theorem createPathFrom_found
    (listed : files.observe SharingFile.list parentId = some fileList)
    (valid : files.findFileIn fileList dirName ≠ invalidId) :
    SharingGroup.createPathFrom parentId (dirName :: rest) files =
      SharingGroup.createPathFrom (files.findFileIn fileList dirName) rest
        files := by
  obtain ⟨fileName, found⟩ := observe_list_eq_some.mp listed
  simp only [SharingGroup.createPathFrom, Action.bind_apply,
    Action.check_apply, getFile_eq_ok.mpr found, Action.read_apply,
    if_neg valid]

theorem createPathFrom_missing (shape : Shape roots files)
    (listed : files.observe SharingFile.list parentId = some fileList)
    (absent : files.findFileIn fileList dirName = invalidId) :
    SharingGroup.createPathFrom parentId (dirName :: rest) files =
      SharingGroup.createPathFrom files.nextId rest
        (files.makeDirectory parentId dirName) := by
  obtain ⟨fileName, found⟩ := observe_list_eq_some.mp listed
  have registered := insertFile_eq (shape.fresh files.nextId (Int.le_refl _))
    { fileName := dirName, body := .directory [] }
  simp only [SharingGroup.createPathFrom, Action.bind_apply,
    Action.check_apply, getFile_eq_ok.mpr found, Action.read_apply,
    if_pos absent, registerFile, registered, Action.modify_apply,
    makeDirectory]

theorem createPathFrom_blocked
    (unlisted : files.observe SharingFile.list parentId = none) :
    ∃ fault, SharingGroup.createPathFrom parentId (dirName :: rest) files =
      (.error fault, files) := by
  simp only [SharingGroup.createPathFrom, Action.bind_apply,
    Action.check_apply]
  cases got : files.getFile parentId with
  | error fault => exact ⟨fault, rfl⟩
  | ok parent =>
      have other := body_of_not_listed unlisted got
      cases body : parent.body with
      | directory entries => exact absurd body (other entries)
      | generalFile storageFileId =>
          simp only [body]
          exact ⟨_, rfl⟩
      | storageFile nodeId useCounting =>
          simp only [body]
          exact ⟨_, rfl⟩

section Made

variable (shape : Shape roots files)
  (listed : files.observe SharingFile.list parentId = some fileList)

include shape listed

/-- The new directory is empty. -/
theorem list_makeDirectory_new :
    (files.makeDirectory parentId dirName).observe SharingFile.list
      files.nextId = some [] := by
  have known := shape.lt_of_observe listed
  have still := shape.observe_addEntry_of_some
    { fileName := dirName, body := .directory [] } listed
  obtain ⟨fileName, found⟩ := observe_list_eq_some.mp still
  rw [makeDirectory, observe, findFile_pushFile _ found,
    if_neg (Int.ne_of_lt known), ← observe, observe_addEntry, if_pos rfl]
  rfl

theorem list_makeDirectory :
    (files.makeDirectory parentId dirName).observe SharingFile.list
      parentId = some (fileList ++ [files.nextId]) :=
  list_pushFile _ (shape.observe_addEntry_of_some _ listed)

/-- The new directory is found under its name. -/
theorem findFileIn_makeDirectory
    (absent : files.findFileIn fileList dirName = invalidId) :
    (files.makeDirectory parentId dirName).findFileIn
      (fileList ++ [files.nextId]) dirName = files.nextId := by
  have grows := shape.extends_addEntry
    { fileName := dirName, body := .directory [] }
  have still := shape.observe_addEntry_of_some
    { fileName := dirName, body := .directory [] } listed
  have valid : ∀ fileId ∈ fileList, fileId ≠ invalidId := by
    rintro fileId present rfl
    obtain ⟨file, found, -⟩ :=
      (shape.arranged.live parentId _ (child_of_list listed present)).2
    rw [shape.owned.not_found_invalidId] at found
    cases found
  have others : fileList.find? (fun fileId => decide
      ((files.makeDirectory parentId dirName).name fileId =
        some dirName)) = none := by
    apply List.find?_eq_none.mpr
    intro fileId present named
    apply name_of_not_found absent valid fileId present
    rw [decide_eq_true_eq, makeDirectory, name_pushFile still,
      grows.names parentId fileId (child_of_list listed present)] at named
    exact named
  have own : (files.makeDirectory parentId dirName).name files.nextId =
      some dirName := by
    rw [makeDirectory, name_pushFile still, name, findFile_addEntry,
      if_pos rfl]
    rfl
  rw [findFileIn_eq, List.find?_append, others, Option.none_or,
    List.find?_cons, own, decide_eq_true rfl]
  rfl

end Made

end Rounds

/-! ## The loop -/

/-- The loop makes what is missing, and the names lead to directories. -/
def Creates (files : SharingFileManager) (parentId : Int)
    (path : List Text) : Prop :=
  ∃ later, SharingGroup.createPathFrom parentId path files = (.ok (), later) ∧
    Extends files later ∧ Directories later parentId path

section Loop

variable {parentId : Int} {fileList : List Int} {dirName : Text}
  {rest path : List Text}

/-- The rest of the path is made below the new directory. -/
theorem Creates.missing (shape : Shape roots files)
    (listed : files.observe SharingFile.list parentId = some fileList)
    (absent : files.findFileIn fileList dirName = invalidId)
    (creates : Creates (files.makeDirectory parentId dirName) files.nextId
      rest) : Creates files parentId (dirName :: rest) := by
  obtain ⟨later, ran, grows, directories⟩ := creates
  have made := shape.extends_makesDirectory
    (MakesDirectory.under dirName listed absent)
  have longer : (files.makeDirectory parentId dirName).observe
      SharingFile.list parentId = some (fileList ++ [files.nextId]) :=
    list_makeDirectory shape listed
  have first : (files.makeDirectory parentId dirName).findFileIn
      (fileList ++ [files.nextId]) dirName = files.nextId :=
    findFileIn_makeDirectory shape listed absent
  have valid : files.nextId ≠ invalidId := by
    have positive := shape.owned.positive
    unfold invalidId
    omega
  refine ⟨later, ?_, made.trans grows, ?_⟩
  · rw [createPathFrom_missing shape listed absent]
    exact ran
  · obtain ⟨more, final⟩ := grows.lists parentId _ longer
    have found := grows.findFileIn more longer (by rwa [first])
    rw [first] at found
    exact .cons final (by rwa [found]) (by rwa [found])

theorem Creates.found
    (listed : files.observe SharingFile.list parentId = some fileList)
    (valid : files.findFileIn fileList dirName ≠ invalidId)
    (creates : Creates files (files.findFileIn fileList dirName) rest) :
    Creates files parentId (dirName :: rest) := by
  obtain ⟨later, ran, grows, directories⟩ := creates
  refine ⟨later, ?_, grows, ?_⟩
  · rw [createPathFrom_found listed valid]
    exact ran
  · obtain ⟨more, final⟩ := grows.lists parentId fileList listed
    have same := grows.findFileIn more listed valid
    exact .cons final (by rwa [same]) (by rwa [same])

/-- Below an empty directory everything is made. -/
theorem creates_of_empty (shape : Shape roots files)
    (listed : files.observe SharingFile.list parentId = some []) :
    Creates files parentId path := by
  induction path generalizing parentId files with
  | nil => exact ⟨files, rfl, .refl files, directories_nil listed⟩
  | cons dirName rest inductionHypothesis =>
      have absent : files.findFileIn [] dirName = invalidId := rfl
      apply Creates.missing shape listed absent
      exact inductionHypothesis
        (shape.makesDirectory (.under dirName listed absent))
        (list_makeDirectory_new shape listed)

/-- The loop makes the path, or stops at an entry that is no directory, or
ends at one. -/
theorem createPathFrom_cases (shape : Shape roots files) :
    Creates files parentId path ∨
      (∃ fault, SharingGroup.createPathFrom parentId path files =
          (.error fault, files) ∧
        ∀ last, ¬Walk files parentId path last) ∨
      ∃ last, SharingGroup.createPathFrom parentId path files =
          (.ok (), files) ∧
        Walk files parentId path last ∧
          files.observe SharingFile.list last = none := by
  induction path generalizing parentId with
  | nil =>
      cases listed : files.observe SharingFile.list parentId with
      | none => exact .inr (.inr ⟨parentId, rfl, .nil _, listed⟩)
      | some fileList =>
          exact .inl ⟨files, rfl, .refl files, directories_nil listed⟩
  | cons dirName rest inductionHypothesis =>
      cases listed : files.observe SharingFile.list parentId with
      | none =>
          obtain ⟨fault, ran⟩ := createPathFrom_blocked listed
          refine .inr (.inl ⟨fault, ran, ?_⟩)
          rintro last (_ | ⟨directory, -, -⟩)
          rw [listed] at directory
          cases directory
      | some fileList =>
          by_cases absent : files.findFileIn fileList dirName = invalidId
          · refine .inl (Creates.missing shape listed absent ?_)
            exact creates_of_empty
              (shape.makesDirectory (.under dirName listed absent))
              (list_makeDirectory_new shape listed)
          · rw [createPathFrom_found listed absent]
            rcases @inductionHypothesis (files.findFileIn fileList dirName)
              with creates | ⟨fault, ran, blocked⟩ | ⟨last, ran, walk, ends⟩
            · exact .inl (creates.found listed absent)
            · refine .inr (.inl ⟨fault, ran, ?_⟩)
              intro last walk
              cases walk with
              | cons directory valid walk =>
                  rw [listed] at directory
                  cases directory
                  exact blocked last walk
            · exact .inr (.inr ⟨last, ran, .cons listed absent walk, ends⟩)

/-- A path that leads somewhere is left as it is. -/
theorem createPathFrom_of_walk {last : Int}
    (walk : Walk files parentId path last) :
    SharingGroup.createPathFrom parentId path files = (.ok (), files) := by
  induction walk with
  | nil => rfl
  | cons listed valid walk inductionHypothesis =>
      rw [createPathFrom_found listed valid]
      exact inductionHypothesis

end Loop

end SharingFileManager

open SharingFileManager

/-! ## create_path -/

/-- All initial parts of the path resolve to directories. -/
def ResolvesToDirectories (group : SharingGroup)
    (files : SharingFileManager) (path : FilePath) : Prop :=
  ∀ names, names <+: path.split → ∃ fileId file,
    SharingGroup.getFileIdFrom files group.rootDirId names = .ok fileId ∧
      files.getFile fileId = .ok file ∧ file.fileType = .directory

/-- The function throws and changes nothing, or the path resolves along
directories afterwards and is not made again. -/
def CreatesPath (group : SharingGroup) (files : SharingFileManager)
    (path : FilePath) : Prop :=
  match group.createPath path files with
  | (.error _, later) => later = files
  | (.ok (), later) => ResolvesToDirectories group later path ∧
      group.createPath path later = (.ok (), later)

/-- The path resolves to a general file. -/
def LeadsToGeneralFile (group : SharingGroup) (files : SharingFileManager)
    (path : FilePath) : Prop :=
  ∃ fileId file, group.getFileId files path = .ok fileId ∧
    files.getFile fileId = .ok file ∧ file.fileType = .generalFile

section CreatePath

variable {files : SharingFileManager} {roots : Int → Prop}
  {group : SharingGroup} {path : FilePath}

theorem resolvesToDirectories_of_directories
    (directories : Directories files group.rootDirId path.split) :
    ResolvesToDirectories group files path := by
  intro names isPrefix
  obtain ⟨fileId, fileList, walk, listed⟩ := directories names isPrefix
  obtain ⟨fileName, found⟩ := observe_list_eq_some.mp listed
  exact ⟨fileId, _, getFileIdFrom_of_walk walk, getFile_eq_ok.mpr found, rfl⟩

theorem list_of_directory {fileId : Int} {file : SharingFile}
    (got : files.getFile fileId = .ok file)
    (directory : file.fileType = .directory) :
    files.observe SharingFile.list fileId ≠ none := by
  rw [observe_of_findFile (getFile_eq_ok.mp got)]
  obtain ⟨fileName, body⟩ := file
  cases body with
  | directory fileList => exact Option.some_ne_none _
  | generalFile storageFileId => cases directory
  | storageFile nodeId useCounting => cases directory

theorem list_of_generalFile {fileId : Int} {file : SharingFile}
    (got : files.getFile fileId = .ok file)
    (general : file.fileType = .generalFile) :
    files.observe SharingFile.list fileId = none := by
  rw [observe_of_findFile (getFile_eq_ok.mp got)]
  obtain ⟨fileName, body⟩ := file
  cases body with
  | directory fileList => cases general
  | generalFile storageFileId => rfl
  | storageFile nodeId useCounting => cases general

theorem walk_of_getFileId {fileId : Int}
    (resolved : group.getFileId files path = .ok fileId)
    (valid : fileId ≠ invalidId) :
    Walk files group.rootDirId path.split fileId :=
  walk_of_getFileIdFrom resolved valid

theorem walk_of_leads (shape : Shape roots files)
    (leads : LeadsToGeneralFile group files path) :
    ∃ fileId, Walk files group.rootDirId path.split fileId ∧
      files.observe SharingFile.list fileId = none := by
  obtain ⟨fileId, file, resolved, got, general⟩ := leads
  have valid : fileId ≠ invalidId := by
    rintro rfl
    have found := getFile_eq_ok.mp got
    rw [shape.owned.not_found_invalidId] at found
    cases found
  exact ⟨fileId, walk_of_getFileId resolved valid,
    list_of_generalFile got general⟩

/-- A walk from a root that ends at no directory ends at a general file. -/
theorem leads_of_walk (shape : Shape roots files)
    (isRoot : roots group.rootDirId) {last : Int}
    (walk : Walk files group.rootDirId path.split last)
    (ends : files.observe SharingFile.list last = none) :
    LeadsToGeneralFile group files path := by
  have live : files.hierarchy.live last := by
    rcases Relation.ReflTransGen.cases_tail walk.reaches with same |
      ⟨parentId, -, child⟩
    · exact absurd (same ▸ ends) (shape.rootLists _ isRoot)
    · exact (shape.arranged.live parentId last child).2
  obtain ⟨file, found, place⟩ := live
  refine ⟨last, file, getFileIdFrom_of_walk walk, getFile_eq_ok.mpr found, ?_⟩
  rcases fileType_of_place place with directory | general
  · exact absurd ends (list_of_directory (getFile_eq_ok.mpr found) directory)
  · exact general

/-- The path of a file is taken for one that exists already. -/
theorem not_createsPath {last : Int}
    (walk : Walk files group.rootDirId path.split last)
    (unlisted : files.observe SharingFile.list last = none) :
    ¬CreatesPath group files path := by
  unfold CreatesPath SharingGroup.createPath
  rw [createPathFrom_of_walk walk]
  rintro ⟨resolves, -⟩
  obtain ⟨other, file, same, got, directory⟩ := resolves _ List.prefix_rfl
  rw [getFileIdFrom_of_walk walk] at same
  cases same
  exact list_of_directory got directory unlisted

/-- The function does what it is there for exactly where the path does not
lead to a general file. -/
theorem createsPath_iff (shape : Shape roots files)
    (isRoot : roots group.rootDirId) :
    CreatesPath group files path ↔ ¬LeadsToGeneralFile group files path := by
  rcases @createPathFrom_cases files roots group.rootDirId path.split shape
    with ⟨later, ran, -, directories⟩ | ⟨fault, ran, blocked⟩ |
      ⟨last, ran, walk, ends⟩
  · unfold CreatesPath SharingGroup.createPath
    rw [ran]
    obtain ⟨fileId, fileList, along, listed⟩ := directories _ List.prefix_rfl
    refine iff_of_true ⟨resolvesToDirectories_of_directories directories,
      createPathFrom_of_walk along⟩ fun leads => ?_
    obtain ⟨last, walk, ends⟩ := walk_of_leads shape leads
    -- The path leads somewhere, so nothing was made.
    rw [createPathFrom_of_walk walk] at ran
    cases ran
    have same := (getFileIdFrom_of_walk along).symm.trans
      (getFileIdFrom_of_walk walk)
    cases same
    rw [listed] at ends
    cases ends
  · unfold CreatesPath SharingGroup.createPath
    rw [ran]
    refine iff_of_true rfl fun leads => ?_
    obtain ⟨last, walk, ends⟩ := walk_of_leads shape leads
    exact blocked last walk
  · refine iff_of_false ?_ (not_not.mpr (leads_of_walk shape isRoot walk ends))
    exact not_createsPath walk ends

end CreatePath

/-- In every reachable state, for every group and path. -/
theorem createsPath_iff_of_reachable {messageSize : Message → Nat}
    {worker : ServerWorker}
    (reachable : (serverMachine messageSize).Reachable worker)
    {groupId : Int} {group : SharingGroup}
    (found : worker.app.groups.findGroup groupId = some group)
    (path : FilePath) :
    CreatesPath group worker.app.files path ↔
      ¬LeadsToGeneralFile group worker.app.files path :=
  createsPath_iff (shape_of_reachable reachable) ⟨groupId, group, found, rfl⟩

theorem reachable_uploadedWorker :
    (serverMachine fun _ => 0).Reachable uploadedWorker :=
  ⟨sameNameEvents, (Option.some_get _).symm⟩

theorem found_uploadedWorker : uploadedWorker.app.groups.findGroup 1 =
    some (SharingGroup.init 1 ['g'] 1 1 1) := by decide +kernel

/-- The directory `d` is a path that exists. -/
theorem createsPath_uploadedWorker :
    CreatesPath (SharingGroup.init 1 ['g'] 1 1 1) uploadedWorker.app.files
        (FilePath.ofText ['d']) ↔
      ¬LeadsToGeneralFile (SharingGroup.init 1 ['g'] 1 1 1)
        uploadedWorker.app.files (FilePath.ofText ['d']) :=
  @createsPath_iff_of_reachable (fun _ => 0) uploadedWorker
    reachable_uploadedWorker 1 (SharingGroup.init 1 ['g'] 1 1 1)
    found_uploadedWorker (FilePath.ofText ['d'])

theorem getFileId_uploadedWorker : (SharingGroup.init 1 ['g'] 1 1 1).getFileId
    uploadedWorker.app.files (FilePath.ofText ['f']) = .ok 3 := by
  decide +kernel

theorem observe_uploadedWorker :
    uploadedWorker.app.files.observe SharingFile.list 3 = none := by
  decide +kernel

theorem walk_uploadedWorker : Walk uploadedWorker.app.files
    (SharingGroup.init 1 ['g'] 1 1 1).rootDirId (FilePath.ofText ['f']).split
    3 :=
  walk_of_getFileId getFileId_uploadedWorker (by decide)

/-- The file `f` is taken for a directory that exists. -/
theorem not_createsPath_uploadedWorker :
    ¬CreatesPath (SharingGroup.init 1 ['g'] 1 1 1) uploadedWorker.app.files
      (FilePath.ofText ['f']) :=
  not_createsPath walk_uploadedWorker observe_uploadedWorker

theorem not_always_createsPath {messageSize : Message → Nat}
    {worker : ServerWorker}
    (reachable : (serverMachine messageSize).Reachable worker)
    {groupId : Int} {group : SharingGroup} {path : FilePath}
    (found : worker.app.groups.findGroup groupId = some group)
    (missed : ¬CreatesPath group worker.app.files path) :
    ¬∀ worker : ServerWorker, (serverMachine messageSize).Reachable worker →
      ∀ groupId group path,
        worker.app.groups.findGroup groupId = some group →
        CreatesPath group worker.app.files path :=
  fun always => missed (always worker reachable groupId group path found)

theorem not_createsPath_always :
    ¬∀ worker : ServerWorker, (serverMachine fun _ => 0).Reachable worker →
      ∀ groupId group path,
        worker.app.groups.findGroup groupId = some group →
        CreatesPath group worker.app.files path :=
  not_always_createsPath reachable_uploadedWorker found_uploadedWorker
    not_createsPath_uploadedWorker

end ResourceServer
end Spaceless
