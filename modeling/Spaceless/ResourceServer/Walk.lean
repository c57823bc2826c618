import Mathlib.Data.List.Find
import Spaceless.ResourceServer.Tree

/-!
# Walks along names

A path is resolved by looking up one name after the other.  A walk says which
entries it meets; it is kept when the table grows, and when an entry off the
walk is removed.
-/

namespace Spaceless
namespace ResourceServer

open Logic Foundation Protocol

namespace SharingFileManager

variable {files later : SharingFileManager} {roots : Int → Prop}

/-- The name of an entry. -/
def name (files : SharingFileManager) (fileId : Int) : Option Text :=
  (files.findFile fileId).map SharingFile.fileName

theorem findFileIn_eq (fileList : List Int) (filename : Text) :
    files.findFileIn fileList filename =
      (fileList.find? fun fileId =>
        decide (files.name fileId = some filename)).getD invalidId := by
  unfold findFileIn name
  congr 2
  funext fileId
  cases files.findFile fileId with
  | none => simp
  | some file => simp [beq_eq_decide]

theorem name_findFileIn {fileList : List Int} {filename : Text}
    (valid : files.findFileIn fileList filename ≠ invalidId) :
    files.name (files.findFileIn fileList filename) = some filename := by
  rw [findFileIn_eq] at valid ⊢
  cases search : fileList.find? fun fileId =>
      decide (files.name fileId = some filename) with
  | none => simp [search] at valid
  | some fileId => simpa using List.find?_some search

/-- A name that is not found belongs to no entry of the list. -/
theorem name_of_not_found {fileList : List Int} {filename : Text}
    (absent : files.findFileIn fileList filename = invalidId)
    (valid : ∀ fileId ∈ fileList, fileId ≠ invalidId) :
    ∀ fileId ∈ fileList, files.name fileId ≠ some filename := by
  intro fileId present same
  rw [findFileIn_eq] at absent
  cases search : fileList.find? fun fileId =>
      decide (files.name fileId = some filename) with
  | none =>
      apply List.find?_eq_none.mp search fileId present
      simpa using same
  | some first =>
      rw [search] at absent
      exact valid first (List.mem_of_find?_eq_some search) absent

/-! ## Walks -/

/-- The names of a path lead from an entry to another. -/
inductive Walk (files : SharingFileManager) : Int → List Text → Int → Prop
  | nil (fileId : Int) : Walk files fileId [] fileId
  | cons {parentId dirName rest last fileList}
      (listed : files.observe SharingFile.list parentId = some fileList)
      (valid : files.findFileIn fileList dirName ≠ invalidId)
      (walk : Walk files (files.findFileIn fileList dirName) rest last) :
      Walk files parentId (dirName :: rest) last

namespace Walk

variable {first middle last : Int} {path rest : List Text}

theorem append (walk : Walk files first path middle)
    (next : Walk files middle rest last) :
    Walk files first (path ++ rest) last := by
  induction walk with
  | nil => exact next
  | cons listed valid _ inductionHypothesis =>
      exact .cons listed valid (inductionHypothesis next)

/-- A walk goes from parents to children. -/
theorem reaches (walk : Walk files first path last) :
    Relation.ReflTransGen files.hierarchy.Child first last := by
  induction walk with
  | nil => exact .refl
  | cons listed valid _ inductionHypothesis =>
      refine .head ?_ inductionHypothesis
      rw [Hierarchy.Child, children_of_list listed]
      exact findFileIn_mem valid

end Walk

section Lookups

variable {parentId : Int} {fileList : List Int}

theorem getFileIdFrom_cons (dirName : Text) (rest : List Text)
    (listed : files.observe SharingFile.list parentId = some fileList) :
    SharingGroup.getFileIdFrom files parentId (dirName :: rest) =
      if files.findFileIn fileList dirName = invalidId then .ok invalidId
      else SharingGroup.getFileIdFrom files
        (files.findFileIn fileList dirName) rest := by
  obtain ⟨fileName, found⟩ := observe_list_eq_some.mp listed
  rw [SharingGroup.getFileIdFrom, getFile_eq_ok.mpr found]

theorem walkToRemove_cons (previousId : Int) (dirName : Text)
    (rest : List Text)
    (listed : files.observe SharingFile.list parentId = some fileList) :
    SharingGroup.walkToRemove files previousId parentId (dirName :: rest) =
      if files.findFileIn fileList dirName = invalidId then
        .error ErrorCode.errFileNotExist.fault
      else SharingGroup.walkToRemove files parentId
        (files.findFileIn fileList dirName) rest := by
  obtain ⟨fileName, found⟩ := observe_list_eq_some.mp listed
  rw [SharingGroup.walkToRemove, getFile_eq_ok.mpr found]

/-- The body of an entry without a list. -/
theorem body_of_not_listed {file : SharingFile}
    (unlisted : files.observe SharingFile.list parentId = none)
    (got : files.getFile parentId = .ok file) (entries : List Int) :
    file.body ≠ .directory entries := by
  intro body
  rw [observe_of_findFile (getFile_eq_ok.mp got), SharingFile.list, body]
    at unlisted
  cases unlisted

end Lookups

theorem getFileIdFrom_of_walk {first last : Int} {path : List Text}
    (walk : Walk files first path last) :
    SharingGroup.getFileIdFrom files first path = .ok last := by
  induction walk with
  | nil => rfl
  | cons listed valid _ inductionHypothesis =>
      rw [getFileIdFrom_cons _ _ listed, if_neg valid]
      exact inductionHypothesis

theorem walk_of_getFileIdFrom {first last : Int} {path : List Text}
    (resolved : SharingGroup.getFileIdFrom files first path = .ok last)
    (valid : last ≠ invalidId) : Walk files first path last := by
  induction path generalizing first with
  | nil =>
      cases resolved
      exact .nil _
  | cons dirName rest inductionHypothesis =>
      cases listed : files.observe SharingFile.list first with
      | none =>
          rw [SharingGroup.getFileIdFrom] at resolved
          split at resolved
          · cases resolved
          · rename_i parent got
            split at resolved
            · rename_i body
              exact absurd body (body_of_not_listed listed got _)
            · cases resolved
              exact absurd rfl valid
      | some fileList =>
          rw [getFileIdFrom_cons _ _ listed] at resolved
          split at resolved
          · cases resolved
            exact absurd rfl valid
          · rename_i found
            exact .cons listed found (inductionHypothesis resolved)

/-- What the walk of `remove_path` finds: its start, or an entry with the
directory that lists it. -/
theorem walk_of_walkToRemove {previousId first : Int} {path : List Text}
    {found : Int × Int}
    (walked : SharingGroup.walkToRemove files previousId first path =
      .ok found) :
    Walk files first path found.2 ∧
      (found = (previousId, first) ∨ ∃ fileList,
        files.observe SharingFile.list found.1 = some fileList ∧
          found.2 ∈ fileList) := by
  induction path generalizing previousId first with
  | nil =>
      cases walked
      exact ⟨.nil first, Or.inl rfl⟩
  | cons dirName rest inductionHypothesis =>
      cases listed : files.observe SharingFile.list first with
      | none =>
          rw [SharingGroup.walkToRemove] at walked
          split at walked
          · cases walked
          · rename_i parent got
            split at walked
            · rename_i body
              exact absurd body (body_of_not_listed listed got _)
            · cases walked
      | some fileList =>
          rw [walkToRemove_cons _ _ _ listed] at walked
          split at walked
          · cases walked
          · rename_i valid
            obtain ⟨walk, place⟩ := inductionHypothesis walked
            refine ⟨.cons listed valid walk, Or.inr ?_⟩
            rcases place with rfl | place
            · exact ⟨fileList, listed, findFileIn_mem valid⟩
            · exact place

/-! ## Tables that grow -/

/-- Lists only grow at their ends, and listed entries keep their names. -/
structure Extends (files later : SharingFileManager) : Prop where
  lists : ∀ fileId fileList,
    files.observe SharingFile.list fileId = some fileList →
    ∃ more, later.observe SharingFile.list fileId = some (fileList ++ more)
  names : ∀ parent child, files.hierarchy.Child parent child →
    later.name child = files.name child

namespace Extends

theorem child (grows : Extends files later) {parent child : Int}
    (listed : files.hierarchy.Child parent child) :
    later.hierarchy.Child parent child := by
  obtain ⟨fileList, before, present⟩ := list_of_child listed
  obtain ⟨more, after⟩ := grows.lists parent fileList before
  rw [Hierarchy.Child, children_of_list after]
  exact List.mem_append_left more present

theorem trans {last : SharingFileManager} (first : Extends files later)
    (second : Extends later last) : Extends files last := by
  constructor
  · intro fileId fileList listed
    obtain ⟨more, after⟩ := first.lists fileId fileList listed
    obtain ⟨rest, final⟩ := second.lists fileId _ after
    exact ⟨more ++ rest, by rw [final, List.append_assoc]⟩
  · intro parent child listed
    rw [second.names parent child (first.child listed)]
    exact first.names parent child listed

/-- What was found first is found first in the longer list. -/
theorem findFileIn (grows : Extends files later) {parentId : Int}
    {fileList : List Int} {filename : Text} (more : List Int)
    (listed : files.observe SharingFile.list parentId = some fileList)
    (valid : files.findFileIn fileList filename ≠ invalidId) :
    later.findFileIn (fileList ++ more) filename =
      files.findFileIn fileList filename := by
  rw [findFileIn_eq] at valid ⊢
  rw [findFileIn_eq, List.find?_append, List.find?_congr]
  · cases search : fileList.find? fun fileId =>
        decide (files.name fileId = some filename) with
    | none =>
        rw [search] at valid
        exact absurd rfl valid
    | some fileId => rfl
  · intro fileId present
    rw [grows.names parentId fileId]
    rw [Hierarchy.Child, children_of_list listed]
    exact present

theorem walk (grows : Extends files later) {first last : Int}
    {path : List Text} (walk : Walk files first path last) :
    Walk later first path last := by
  induction walk with
  | nil => exact .nil _
  | @cons parentId dirName rest last fileList listed valid _
      inductionHypothesis =>
      obtain ⟨more, after⟩ := grows.lists parentId fileList listed
      have same := grows.findFileIn more listed valid
      refine .cons after ?_ ?_ <;> rw [same]
      · exact valid
      · exact inductionHypothesis

end Extends

section Growing

variable (shape : Shape roots files)

include shape

theorem Shape.extends_addEntry (file : SharingFile) :
    Extends files (files.addEntry file) := by
  constructor
  · intro fileId fileList listed
    refine ⟨[], ?_⟩
    rw [List.append_nil]
    exact shape.observe_addEntry_of_some file listed
  · intro parent child listed
    have known : files.nextId ≠ child := by
      rintro rfl
      exact shape.unlisted (Int.le_refl _) listed
    rw [name, findFile_addEntry, if_neg known]
    rfl

theorem Shape.extends_addUpload (fileName : Text) (nodeId : Int) :
    Extends files (files.addUpload fileName nodeId) := by
  constructor
  · intro fileId fileList listed
    refine ⟨[], ?_⟩
    rw [List.append_nil]
    exact shape.observe_addUpload_of_some fileName nodeId listed
  · intro parent child listed
    have known : child < files.nextId :=
      Int.not_le.mp fun above => shape.unlisted above listed
    rw [name, findFile_addUpload, if_neg (by omega), if_neg (by omega)]
    rfl

end Growing

theorem name_pushFile {directoryId : Int} {fileList : List Int}
    (listed : files.observe SharingFile.list directoryId = some fileList)
    (fileId : Int) :
    (files.pushFile directoryId fileId).name = files.name := by
  obtain ⟨fileName, found⟩ := observe_list_eq_some.mp listed
  funext other
  rw [name, findFile_pushFile fileId found]
  split
  · rename_i here
    rw [← here, name, found]
    rfl
  · rfl

theorem extends_pushFile {directoryId : Int} {fileList : List Int}
    (listed : files.observe SharingFile.list directoryId = some fileList)
    (fileId : Int) : Extends files (files.pushFile directoryId fileId) := by
  obtain ⟨fileName, found⟩ := observe_list_eq_some.mp listed
  constructor
  · intro other entries before
    by_cases here : directoryId = other
    · subst here
      rw [listed] at before
      cases before
      exact ⟨[fileId], list_pushFile fileId listed⟩
    · refine ⟨[], ?_⟩
      rw [observe, findFile_pushFile fileId found, if_neg here,
        List.append_nil]
      exact before
  · intro parent child _
    rw [name_pushFile listed]

theorem Shape.extends_upload (shape : Shape roots files)
    {parentId : Int} {fileList : List Int} (fileName : Text) (nodeId : Int)
    (listed : files.observe SharingFile.list parentId = some fileList) :
    Extends files ((files.addUpload fileName nodeId).pushFile parentId
      (files.nextId + 1)) :=
  (shape.extends_addUpload fileName nodeId).trans
    (extends_pushFile
      (shape.observe_addUpload_of_some fileName nodeId listed) _)

/-! ## Removals -/

/-- A search that does not end at an entry ends where it did without it. -/
theorem findFileIn_filter {fileList : List Int} {filename : Text}
    {target : Int} (valid : files.findFileIn fileList filename ≠ invalidId)
    (other : files.findFileIn fileList filename ≠ target)
    (names : ∀ fileId ∈ fileList, fileId ≠ target →
      later.name fileId = files.name fileId) :
    later.findFileIn (fileList.filter (· ≠ target)) filename =
      files.findFileIn fileList filename := by
  rw [findFileIn_eq] at valid other ⊢
  rw [findFileIn_eq, List.find?_filter]
  cases search : fileList.find? fun fileId =>
      decide (files.name fileId = some filename) with
  | none =>
      rw [search] at valid
      exact absurd rfl valid
  | some found =>
      rw [search, Option.getD_some] at other
      congr 1
      obtain ⟨named, before, after, rfl, passed⟩ :=
        List.find?_eq_some_iff_append.mp search
      refine List.find?_eq_some_iff_append.mpr
        ⟨?_, before, after, rfl, ?_⟩
      · rw [names found (by simp) other]
        simpa [other] using named
      · intro fileId earlier
        by_cases gone : fileId = target
        · simp [gone]
        · rw [names fileId (List.mem_append_left _ earlier) gone]
          simpa [gone] using passed fileId earlier

section Removal

variable {parentId target : Int} {fileList : List Int}

/-- After a removal the other directories list the same without the entry,
which only one of them has listed. -/
theorem Shape.list_removed (shape : Shape roots files)
    (listed : files.observe SharingFile.list parentId = some fileList)
    (present : target ∈ fileList) {fileId : Int} {entries : List Int}
    (before : files.observe SharingFile.list fileId = some entries)
    (kept : fileId ≠ target) :
    ((files.eraseEntry target).removeFrom parentId target).observe
      SharingFile.list fileId = some (entries.filter (· ≠ target)) := by
  have child : files.hierarchy.Child parentId target := by
    rw [Hierarchy.Child, children_of_list listed]
    exact present
  obtain ⟨fileName, found⟩ := observe_list_eq_some.mp
    (shape.list_eraseEntry listed (shape.arranged.ne child))
  rw [observe, findFile_removeFrom target found]
  split
  · rename_i here
    rw [← here, listed] at before
    cases before
    rfl
  · rename_i elsewhere
    rw [← observe, shape.list_eraseEntry before kept,
      List.filter_eq_self.mpr]
    intro entry entryPresent
    simp only [decide_eq_true_eq]
    rintro rfl
    apply elsewhere
    refine shape.arranged.unique parentId fileId entry child ?_
    rw [Hierarchy.Child, children_of_list before]
    exact entryPresent

theorem Shape.name_removed (shape : Shape roots files)
    (listed : files.observe SharingFile.list parentId = some fileList)
    (present : target ∈ fileList) {fileId : Int}
    (live : files.hierarchy.live fileId) (kept : fileId ≠ target) :
    ((files.eraseEntry target).removeFrom parentId target).name fileId =
      files.name fileId := by
  have child : files.hierarchy.Child parentId target := by
    rw [Hierarchy.Child, children_of_list listed]
    exact present
  have same := shape.findFile_eraseEntry_of_live live kept
  obtain ⟨fileName, found⟩ := observe_list_eq_some.mp
    (shape.list_eraseEntry listed (shape.arranged.ne child))
  rw [name, findFile_removeFrom target found, name]
  split
  · rename_i here
    rw [← same, ← here, found]
    rfl
  · rw [same]

/-- A removal that is off the walk does not change it. -/
theorem Shape.walk_removed (shape : Shape roots files)
    (listed : files.observe SharingFile.list parentId = some fileList)
    (present : target ∈ fileList) {first last : Int} {path : List Text}
    (walk : Walk files first path last)
    (off : ∀ names, names <+: path → ¬Walk files first names target) :
    Walk ((files.eraseEntry target).removeFrom parentId target)
      first path last := by
  induction walk with
  | nil => exact .nil _
  | @cons fileId dirName rest last entries before valid walk
      inductionHypothesis =>
      have kept : fileId ≠ target := by
        rintro rfl
        exact off [] List.nil_prefix (.nil _)
      have next : files.findFileIn entries dirName ≠ target := by
        intro same
        apply off [dirName] (by simp)
        exact .cons before valid (same ▸ .nil _)
      have found := findFileIn_filter valid next fun child childPresent
        childKept => shape.name_removed listed present
          (shape.arranged.live fileId child (by
            rw [Hierarchy.Child, children_of_list before]
            exact childPresent)).2 childKept
      refine .cons (shape.list_removed listed present before kept) ?_ ?_ <;>
        rw [found]
      · exact valid
      · apply inductionHypothesis
        rintro names ⟨more, rfl⟩ toTarget
        apply off (dirName :: names) ⟨more, rfl⟩
        exact .cons before valid toTarget

end Removal

end SharingFileManager

end ResourceServer
end Spaceless
