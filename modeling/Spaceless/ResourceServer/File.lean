import Spaceless.Logic.Table
import Spaceless.ResourceServer.Error

/-!
# The file entries of all groups

`SharingFileManager` keeps directories, general files and storage files of
all groups in one table.  The id of an entry is its key, so the `file_id`
member is not repeated in the entry; the type of an entry is the constructor
of its body.
-/

namespace Spaceless
namespace ResourceServer

open Logic Foundation

inductive FileType
  | directory
  | generalFile
  | storageFile
  deriving DecidableEq

/-- What the three classes derived from `SharingFile` add to it. -/
inductive FileBody
  | directory (fileList : List Int)
  | generalFile (storageFileId : Int)
  | storageFile (nodeId useCounting : Int)
  deriving DecidableEq

structure SharingFile where
  fileName : Text
  body : FileBody
  deriving DecidableEq

def SharingFile.fileType (file : SharingFile) : FileType :=
  match file.body with
  | .directory _ => .directory
  | .generalFile _ => .generalFile
  | .storageFile _ _ => .storageFile

structure SharingFileManager where
  fileList : Table Int SharingFile
  nextId : Int
  deriving DecidableEq

namespace SharingFileManager

/-- The manager as constructed. -/
def init : SharingFileManager where
  fileList := ∅
  nextId := 1

def findFile (manager : SharingFileManager) (fileId : Int) :
    Option SharingFile :=
  manager.fileList[fileId]?

/-- `find_file` by place: the first storage file on the node with the name. -/
def findFileOnNode (manager : SharingFileManager)
    (nodeId : Int) (nodeFileName : Text) : Option (Int × SharingFile) :=
  manager.fileList.findIf fun file =>
    match file.body with
    | .storageFile fileNodeId _ =>
        fileNodeId == nodeId && file.fileName == nodeFileName
    | _ => false

def getFile (manager : SharingFileManager) (fileId : Int) :
    Except Fault SharingFile :=
  match manager.findFile fileId with
  | some file => .ok file
  | none => .error ErrorCode.errFileNotExist.fault

/-- Replace the entry of a file that is in the table. -/
def setFile (manager : SharingFileManager)
    (fileId : Int) (file : SharingFile) : SharingFileManager :=
  { manager with fileList := manager.fileList.insert fileId file }

/-- The last part of `register_file`: number the new file and insert it. -/
def insertFile (file : SharingFile) : Action Fault SharingFileManager Int :=
  fun manager =>
    let counted := { manager with nextId := manager.nextId + 1 }
    match manager.findFile manager.nextId with
    | some _ => (.error ErrorCode.errFileAlreadyExist.fault, counted)
    | none => (.ok manager.nextId, counted.setFile manager.nextId file)

/-- The reference that a new general file takes on its storage file.  The
cast to `SharingStorageFile&` throws `std::bad_cast` on another file. -/
def useStorageFile (storageFileId : Int) :
    Action Fault SharingFileManager Unit := fun manager =>
  match manager.getFile storageFileId with
  | .error fault => (.error fault, manager)
  | .ok file =>
      match file.body with
      | .storageFile nodeId useCounting =>
          (.ok (), manager.setFile storageFileId
            { file with body := .storageFile nodeId (useCounting + 1) })
      | _ => (.error (.exception .standard), manager)

/-- `register_file`; the result is the id of the new entry. -/
def registerFile (fileType : FileType) (fileName : Text) (arg : Int) :
    Action Fault SharingFileManager Int :=
  match fileType with
  | .directory => insertFile { fileName := fileName, body := .directory [] }
  | .generalFile => do
      useStorageFile arg
      insertFile { fileName := fileName, body := .generalFile arg }
  | .storageFile =>
      insertFile { fileName := fileName, body := .storageFile arg 0 }

/-- Erase an entry. -/
def eraseFile (manager : SharingFileManager) (fileId : Int) :
    SharingFileManager :=
  { manager with fileList := manager.fileList.erase fileId }

/-- `remove_file`.  With a general file its storage file goes too, whatever
its use count: the recursive call meets a storage file, since the assertion
and the cast before it succeeded, and so only erases the entry whose count
was just decremented. -/
def removeFile (fileId : Int) : Action Fault SharingFileManager Unit :=
  fun manager =>
    let erased := manager.eraseFile fileId
    match manager.findFile fileId with
    | none => (.ok (), erased)
    | some file =>
        match file.body with
        | .generalFile storageFileId =>
            match erased.getFile storageFileId with
            | .error fault => (.error fault, erased)
            | .ok storageFile =>
                match storageFile.body with
                | .storageFile _ _ =>
                    (.ok (), erased.eraseFile storageFileId)
                | _ => (.error .undefined, erased)
        | _ => (.ok (), erased)

/-- `SharingDirectory::find_file` on the directory's list: the first id that
is registered under the name. -/
def findFileIn (manager : SharingFileManager)
    (fileList : List Int) (filename : Text) : Int :=
  (fileList.find? fun fileId =>
    match manager.findFile fileId with
    | some file => file.fileName == filename
    | none => false).getD invalidId

/-- `push_back` on the list of a directory. -/
def pushFile (manager : SharingFileManager) (directoryId fileId : Int) :
    SharingFileManager :=
  match manager.findFile directoryId with
  | some file =>
      match file.body with
      | .directory fileList =>
          manager.setFile directoryId
            { file with body := .directory (fileList ++ [fileId]) }
      | _ => manager
  | none => manager

/-- `SharingDirectory::remove_file` on a directory of the table. -/
def removeFrom (manager : SharingFileManager) (directoryId fileId : Int) :
    SharingFileManager :=
  match manager.findFile directoryId with
  | some file =>
      match file.body with
      | .directory fileList =>
          manager.setFile directoryId
            { file with
              body := .directory (fileList.filter (· ≠ fileId)) }
      | _ => manager
  | none => manager

/-- What `SharingFileManager::serialize` writes. -/
structure Object where
  nextId : Int
  fileList : List (Int × SharingFile)
  deriving DecidableEq

def serialize (manager : SharingFileManager) : Object where
  nextId := manager.nextId
  fileList := manager.fileList.toList

/-- `deserialize` into a fresh manager. -/
def deserialize (object : Object) : SharingFileManager where
  fileList := Table.insertAll ∅ object.fileList
  nextId := object.nextId

end SharingFileManager

end ResourceServer
end Spaceless
