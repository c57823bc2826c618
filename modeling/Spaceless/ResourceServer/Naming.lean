import Spaceless.ResourceServer.Arrangement

/-!
# Names in a directory

The server looks for a file by the tokens of its path, and enters it by
`directory_path` and `filename`.  Where the two views of a path agree, no
directory gets two entries of one name; with repeated separators or spaces
they may not.
-/

namespace Spaceless
namespace ResourceServer

open Logic Foundation Protocol SharingFileManager

namespace SharingFileManager

variable {files later : SharingFileManager} {roots : Int → Prop}

/-- The entries of a directory have different names. -/
def SiblingsDistinct (files : SharingFileManager) : Prop :=
  files.hierarchy.NamesDistinct files.name

/-- New entries without a place keep the names in the lists. -/
theorem SiblingsDistinct.planted (distinct : SiblingsDistinct files)
    {new : Int} (planted : later.hierarchy = files.hierarchy.plant new)
    (grows : Extends files later) : SiblingsDistinct later := by
  have kept : files.hierarchy.NamesDistinct later.name :=
    Hierarchy.NamesDistinct.congr distinct grows.names
  unfold SiblingsDistinct
  rw [planted]
  exact kept

theorem SiblingsDistinct.pushFile (distinct : SiblingsDistinct files)
    {directoryId fileId : Int} {fileList : List Int}
    (listed : files.observe SharingFile.list directoryId = some fileList)
    (absent : ∀ child ∈ fileList, files.name child ≠ files.name fileId) :
    SiblingsDistinct (files.pushFile directoryId fileId) := by
  unfold SiblingsDistinct
  rw [hierarchy_pushFile listed, name_pushFile listed]
  apply Hierarchy.NamesDistinct.adopt distinct
  intro child present
  rw [Hierarchy.Child, children_of_list listed] at present
  exact absent child present

/-- A name that a directory of a table in shape does not find. -/
theorem Shape.name_of_not_found (shape : Shape roots files)
    {directoryId : Int} {fileList : List Int} {filename : Text}
    (listed : files.observe SharingFile.list directoryId = some fileList)
    (absent : files.findFileIn fileList filename = invalidId) :
    ∀ child ∈ fileList, files.name child ≠ some filename := by
  refine SharingFileManager.name_of_not_found absent ?_
  intro child present
  obtain ⟨-, file, found, -⟩ :=
    shape.arranged.live directoryId child (child_of_list listed present)
  have positive := (shape.owned.bounds child file found).1
  unfold invalidId
  omega

theorem name_addEntry_self (file : SharingFile) :
    (files.addEntry file).name files.nextId = some file.fileName := by
  rw [name, findFile_addEntry, if_pos rfl]
  rfl

theorem name_addUpload_self (fileName : Text) (nodeId : Int) :
    (files.addUpload fileName nodeId).name (files.nextId + 1) =
      some fileName :=
  name_addEntry_self _

namespace SiblingsDistinct

variable (distinct : SiblingsDistinct files) (shape : Shape roots files)

include distinct shape

theorem makesDirectory (makes : MakesDirectory files later) :
    SiblingsDistinct later := by
  obtain ⟨dirName, listed, absent⟩ := makes
  have grows := shape.extends_addEntry
    { fileName := dirName, body := .directory [] }
  have added := distinct.planted
    (hierarchy_addDirectory (shape.fresh _ (Int.le_refl _)) dirName) grows
  refine added.pushFile (shape.observe_addEntry_of_some _ listed) ?_
  intro child present
  rw [name_addEntry_self, grows.names _ child (child_of_list listed present)]
  exact shape.name_of_not_found listed absent child present

theorem makesDirectories
    (makes : Relation.ReflTransGen MakesDirectory files later) :
    SiblingsDistinct later := by
  induction makes with
  | refl => exact distinct
  | tail before step inductionHypothesis =>
      exact inductionHypothesis.makesDirectory
        (shape.makesDirectories before) step

/-- An upload keeps the names different exactly when the directory has no
entry of the name. -/
theorem upload_iff {directoryId : Int} {fileList : List Int}
    (fileName : Text) (nodeId : Int)
    (listed : files.observe SharingFile.list directoryId = some fileList) :
    SiblingsDistinct ((files.addUpload fileName nodeId).pushFile directoryId
        (files.nextId + 1)) ↔
      files.findFileIn fileList fileName = invalidId := by
  have grows := shape.extends_addUpload fileName nodeId
  have still := shape.observe_addUpload_of_some fileName nodeId listed
  have kept (child : Int) (present : child ∈ fileList) :
      (files.addUpload fileName nodeId).name child = files.name child :=
    grows.names directoryId child (child_of_list listed present)
  constructor
  · intro after
    by_contra valid
    have apart := after directoryId
    rw [hierarchy_pushFile still, Hierarchy.children_adopt_self,
      children_of_list still, name_pushFile still] at apart
    have present := findFileIn_mem valid
    have different := (List.pairwise_append.mp apart).2.2 _ present
      (files.nextId + 1) (List.mem_singleton_self _)
    rw [kept _ present, name_findFileIn valid, name_addUpload_self]
      at different
    exact different rfl
  · intro absent
    have added := distinct.planted
      (hierarchy_addUpload shape.fresh fileName nodeId) grows
    refine added.pushFile still ?_
    intro child present
    rw [name_addUpload_self, kept child present]
    exact shape.name_of_not_found listed absent child present

theorem removed {parentId target : Int} {fileList : List Int}
    (listed : files.observe SharingFile.list parentId = some fileList)
    (present : target ∈ fileList) :
    SiblingsDistinct
      ((files.eraseEntry target).removeFrom parentId target) := by
  unfold SiblingsDistinct
  rw [hierarchy_removed listed
    (shape.arranged.ne (child_of_list listed present))
    fun _ leads => shape.place_of_storage leads]
  refine (Hierarchy.NamesDistinct.prune distinct parentId target).congr ?_
  intro parent child still
  obtain ⟨-, before, unlisted⟩ := Hierarchy.child_prune.mp still
  refine shape.name_removed listed present
    (shape.arranged.live parent child before).2 ?_
  rintro rfl
  have same := shape.arranged.unique parent parentId child before
    (child_of_list listed present)
  exact unlisted same rfl

end SiblingsDistinct

end SharingFileManager

/-! ## The two views of a path -/

/-- The tokens of the path are those of its directory and its file name. -/
def FilePath.ViewsAgree (path : FilePath) : Prop :=
  path.split =
    (FilePath.ofText path.directoryPath).split ++ [path.filename]

instance (path : FilePath) : Decidable path.ViewsAgree :=
  inferInstanceAs (Decidable (_ = _))

/-- Where the views agree, the directory has no entry of the name of a path
that leads nowhere. -/
theorem SharingFileManager.UploadsTo.absent_of_viewsAgree
    {files : SharingFileManager} {group : SharingGroup} {path : FilePath}
    {dirId : Int} {fileList : List Int}
    (uploads : UploadsTo files group path dirId)
    (listed : files.observe SharingFile.list dirId = some fileList)
    (agree : path.ViewsAgree) :
    files.findFileIn fileList path.filename = invalidId := by
  by_contra valid
  have last : Walk files dirId [path.filename]
      (files.findFileIn fileList path.filename) :=
    .cons listed valid (.nil _)
  have walk := uploads.walk.append last
  rw [← agree] at walk
  have absent := uploads.absent
  rw [SharingGroup.getFileId, getFileIdFrom_of_walk walk] at absent
  exact valid (Except.ok.inj absent)

/-! ## Runs -/

/-- If the event registers a file, the two views of its path agree, or the
directory that it is entered in has no entry of its name. -/
def NamesFresh (worker : ServerWorker) (event : ServerEvent) : Prop :=
  match event with
  | .worker (.receive _ connId _ package) =>
      worker.waitingTransaction package = none → package.command = 1027 →
      ∀ request user group,
        package.content = some (.reqPutFileSession request) →
        Manages worker.app connId request.groupId user group →
        Uploads worker.app user group request →
        (FilePath.ofText request.filePath).ViewsAgree ∨
        ∀ dirId fileList,
          group.getFileId worker.app.files (FilePath.ofText
            (FilePath.ofText request.filePath).directoryPath) = .ok dirId →
          worker.app.files.observe SharingFile.list dirId = some fileList →
          worker.app.files.findFileIn fileList
            (FilePath.ofText request.filePath).filename = invalidId
  | _ => True

variable {messageSize : Message → Nat}

theorem SharingFileManager.SiblingsDistinct.treeStep {worker : ServerWorker}
    {event : Worker.Event Message ServerCall} {roots : Int → Prop}
    {files : SharingFileManager}
    (distinct : SiblingsDistinct worker.app.files)
    (shape : Shape worker.app.groups.IsRoot worker.app.files)
    (fresh : NamesFresh worker (.worker event))
    (step : TreeStep worker.app (eventSource worker event) roots files) :
    SiblingsDistinct files := by
  generalize source : eventSource worker event = who at step
  cases step with
  | same => exact distinct
  | group groupName =>
      exact distinct.planted
        (hierarchy_addDirectory (shape.fresh _ (Int.le_refl _)) groupName)
        (shape.extends_addEntry _)
  | created path content manages makes =>
      exact distinct.makesDirectories shape makes
  | removed path force content manages removes =>
      exact distinct.removed shape removes.listed removes.present
  | @registered connId package user group files request command content
      manages noSession registered =>
      obtain ⟨starts, now, serviceId, rfl⟩ := eventSource_eq_request source
      cases registered with
      | loose uploads unlisted =>
          exact distinct.planted (hierarchy_addUpload shape.fresh _ _)
            (shape.extends_addUpload _ _)
      | @listed dirId fileList uploads directory =>
          refine (distinct.upload_iff shape _ _ directory).mpr ?_
          rcases fresh starts command request user group content manages
              (uploads_of_uploadsTo noSession uploads) with agree | absent
          · exact uploads.absent_of_viewsAgree directory agree
          · exact absent dirId fileList (getFileIdFrom_of_walk uploads.walk)
              directory

/-- In a run whose uploads are spelled so that the two views agree, or whose
names are new, directories keep entries of different names. -/
theorem siblingsDistinct_throughout {events : List ServerEvent}
    (fresh : (serverMachine messageSize).StepsMeet NamesFresh events) :
    (serverMachine messageSize).Throughout
      (fun worker => SiblingsDistinct worker.app.files) events := by
  refine kept_throughout (fun _ files => SiblingsDistinct files) NamesFresh
    ?_ ?_ fresh
  · intro parent
    simp [hierarchy, SharingFileManager.init, observe, findFile]
  · intro worker event later reachable distinct freshEvent stepped
    exact distinct.treeStep (shape_of_reachable reachable) freshEvent
      (treeStep_of_step reachable stepped)

theorem uploadEvents_namesFresh :
    (serverMachine fun _ => 0).StepsMeet NamesFresh uploadEvents := by
  refine Machine.StepsMeet.snoc (Machine.StepsMeet.of_forall ?_) ?_
  · intro event opens worker
    simp only [openingEvents, clientRequest, List.mem_cons,
      List.not_mem_nil, or_false] at opens
    rcases opens with rfl | rfl | rfl | rfl <;> simp [NamesFresh]
  · rintro worker - - - request user group content - -
    cases content
    exact Or.inl (by decide)

theorem siblingsDistinct_after_upload :
    (serverMachine fun _ => 0).Throughout
      (fun worker => SiblingsDistinct worker.app.files) uploadEvents :=
  siblingsDistinct_throughout uploadEvents_namesFresh

/-- A directory `a`, the upload of `a/b`, and the upload of `a///b`. -/
def twoSpellingEvents : List ServerEvent :=
  openingEvents ++
    [clientRequest 5 (.reqCreatePath 1 ['a']),
      clientRequest 5 (.reqPutFileSession
        { groupId := 1, filePath := ['a', '/', 'b'], maxFragment := 1 }),
      clientRequest 5 (.reqPutFileSession
        { groupId := 1, filePath := ['a', '/', '/', '/', 'b']
          maxFragment := 1 })]

def twoSpellingWorker : ServerWorker :=
  (((serverMachine fun _ => 0).run (serverMachine fun _ => 0).start
    twoSpellingEvents).get (by decide +kernel))

/-- The directory `a` then has two entries of the name `b`. -/
theorem not_siblingsDistinct_always :
    ¬∀ worker : ServerWorker, (serverMachine fun _ => 0).Reachable worker →
      SiblingsDistinct worker.app.files := by
  intro always
  have distinct := always twoSpellingWorker
    ⟨twoSpellingEvents, (Option.some_get _).symm⟩ 2
  have children : twoSpellingWorker.app.files.hierarchy.children 2 =
      [4, 6] := by decide +kernel
  rw [children] at distinct
  have different := List.rel_of_pairwise_cons distinct
    (List.mem_singleton_self (6 : Int))
  exact different (by decide +kernel)

end ResourceServer
end Spaceless
