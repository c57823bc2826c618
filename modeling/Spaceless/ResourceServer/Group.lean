import Spaceless.ResourceServer.FilePath
import Spaceless.ResourceServer.File

/-!
# Sharing groups

A group has an owner, two user lists, a node and the id of its root
directory.  The role functions change the lists; the path functions walk the
tokens of a path from the root directory through the global file table.
-/

namespace Spaceless
namespace ResourceServer

open Logic Foundation

structure SharingGroup where
  groupId : Int
  groupName : Text
  ownerId : Int
  rootDirId : Int
  nodeId : Int
  managerList : List Int
  memberList : List Int
  deriving DecidableEq

namespace SharingGroup

/-- The constructor of `SharingGroup`. -/
def init (groupId : Int) (groupName : Text) (ownerId rootDirId nodeId : Int) :
    SharingGroup where
  groupId := groupId
  groupName := groupName
  ownerId := ownerId
  rootDirId := rootDirId
  nodeId := nodeId
  managerList := [ownerId]
  memberList := [ownerId]

/-! ## Roles -/

def isManager (group : SharingGroup) (userId : Int) : Bool :=
  group.managerList.contains userId

def isMember (group : SharingGroup) (userId : Int) : Bool :=
  group.memberList.contains userId

def joinGroup (group : SharingGroup) (userId : Int) : SharingGroup :=
  if group.isMember userId then group
  else { group with memberList := group.memberList ++ [userId] }

/-- `kick_out_user` erases the first occurrence in each list. -/
def kickOutUser (userId : Int) : Action Fault SharingGroup Unit :=
  fun group =>
    if userId = group.ownerId then
      (.error ErrorCode.errGroupCannotKickOutOwner.fault, group)
    else
      (.ok (),
        { group with
          memberList := group.memberList.erase userId
          managerList := group.managerList.erase userId })

def assignAsManager (userId : Int) : Action Fault SharingGroup Unit := do
  if ← Action.read (·.isMember userId) then
    kickOutUser userId
    Action.modify fun group =>
      { group with managerList := group.managerList ++ [userId] }
  else if ← Action.read (·.isManager userId) then
    throw ErrorCode.errGroupAlreadyIsManager.fault
  else
    throw ErrorCode.errGroupUserNotJoin.fault

def assignAsMember (userId : Int) : Action Fault SharingGroup Unit := do
  if ← Action.read (·.isManager userId) then
    kickOutUser userId
    Action.modify fun group =>
      { group with memberList := group.memberList ++ [userId] }
  else if ← Action.read (·.isMember userId) then
    throw ErrorCode.errGroupAlreadyIsMember.fault
  else
    throw ErrorCode.errGroupUserNotJoin.fault

/-! ## Paths -/

/-- The loop of `get_file_id` from a parent directory. -/
def getFileIdFrom (files : SharingFileManager) :
    Int → List Text → Except Fault Int
  | parentDirId, [] => .ok parentDirId
  | parentDirId, dirName :: rest =>
      match files.getFile parentDirId with
      | .error fault => .error fault
      | .ok parent =>
          match parent.body with
          | .directory fileList =>
              let fileId := files.findFileIn fileList dirName
              if fileId = invalidId then .ok invalidId
              else getFileIdFrom files fileId rest
          | _ => .ok invalidId

def getFileId (group : SharingGroup) (files : SharingFileManager)
    (path : FilePath) : Except Fault Int :=
  getFileIdFrom files group.rootDirId path.split

def existPath (group : SharingGroup) (files : SharingFileManager)
    (path : FilePath) : Except Fault Bool :=
  (group.getFileId files path).map (· ≠ invalidId)

def addFile (group : SharingGroup) (dirPath : FilePath) (fileId : Int) :
    Action Fault SharingFileManager Unit := do
  let dirId ← Action.check fun files => group.getFileId files dirPath
  let dirFile ← Action.check fun files => files.getFile dirId
  Action.throwIf (dirFile.fileType ≠ .directory)
    ErrorCode.errGroupNotDirectory.fault
  Action.modify fun files => files.pushFile dirId fileId

/-- The loop of `create_path` from a parent directory. -/
def createPathFrom : Int → List Text → Action Fault SharingFileManager Unit
  | _, [] => pure ()
  | parentId, dirName :: rest => do
      let parent ← Action.check fun files => files.getFile parentId
      match parent.body with
      | .directory fileList =>
          let fileId ← Action.read fun files =>
            files.findFileIn fileList dirName
          if fileId = invalidId then
            let newId ← SharingFileManager.registerFile .directory dirName 0
            Action.modify fun files => files.pushFile parentId newId
            createPathFrom newId rest
          else createPathFrom fileId rest
      | _ => throw ErrorCode.errGroupNotDirectory.fault

def createPath (group : SharingGroup) (path : FilePath) :
    Action Fault SharingFileManager Unit :=
  createPathFrom group.rootDirId path.split

/-- The loop of `remove_path`: the previous parent and the id reached. -/
def walkToRemove (files : SharingFileManager) :
    Int → Int → List Text → Except Fault (Int × Int)
  | previousParentId, parentId, [] => .ok (previousParentId, parentId)
  | _, parentId, dirName :: rest =>
      match files.getFile parentId with
      | .error fault => .error fault
      | .ok parent =>
          match parent.body with
          | .directory fileList =>
              let fileId := files.findFileIn fileList dirName
              if fileId = invalidId then
                .error ErrorCode.errFileNotExist.fault
              else walkToRemove files parentId fileId rest
          | _ => .error ErrorCode.errGroupNotDirectory.fault

/-- `remove_path`; the assertion on the type of the previous parent aborts. -/
def removePath (group : SharingGroup) (path : FilePath) :
    Action Fault SharingFileManager Unit := do
  let (previousParentId, parentId) ← Action.check fun files =>
    walkToRemove files group.rootDirId group.rootDirId path.split
  Action.throwIf (parentId = group.rootDirId)
    ErrorCode.errGroupCannotRemoveRootDir.fault
  SharingFileManager.removeFile parentId
  let previousParent ← Action.check fun files =>
    files.getFile previousParentId
  Action.throwIf (previousParent.fileType ≠ .directory) Fault.undefined
  Action.modify fun files => files.removeFrom previousParentId parentId

end SharingGroup

end ResourceServer
end Spaceless
