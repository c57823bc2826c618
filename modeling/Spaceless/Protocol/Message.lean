import Spaceless.Foundation.Transaction

/-!
# Messages of the protocol

The messages that clients, the resource server and the storage nodes send to
each other.  Every response carries its error, if any, in its first field, so
an `RspError` parses as any response with that error and all other fields at
their defaults.
-/

namespace Spaceless
namespace Protocol

open Foundation

/-- `MAX_FRAGMENT_CONTENT_LEN`. -/
def maxFragmentContentLen : Int := 50000

/-- `protocol::ErrorInfo`. -/
structure ErrorInfo where
  category : Int
  code : Int
  deriving DecidableEq

/-- `protocol::User`. -/
structure User where
  userId : Int
  userName : Text
  groupList : List Int
  deriving DecidableEq

/-- `protocol::SharingGroup`; the server never sets `root_dir_id`. -/
structure SharingGroup where
  groupId : Int
  groupName : Text
  ownerId : Int
  managerList : List Int
  memberList : List Int
  deriving DecidableEq

/-- `protocol::FileType`. -/
inductive FileType
  | generalFile
  | directory
  deriving DecidableEq

/-- `protocol::File`. -/
structure File where
  filename : Text
  type : FileType
  deriving DecidableEq

structure ReqPutFileSession where
  groupId : Int
  filePath : Text
  maxFragment : Int
  deriving DecidableEq

structure ReqNodePutFileSession where
  filePath : Text
  maxFragment : Int
  deriving DecidableEq

structure RspPutFileSession where
  error : Option ErrorInfo
  sessionId : Int
  nextFragment : Int
  deriving DecidableEq

structure RspNodePutFileSession where
  error : Option ErrorInfo
  sessionId : Int
  deriving DecidableEq

structure ReqPutFile where
  sessionId : Int
  fragmentIndex : Int
  fragmentContent : List UInt8
  deriving DecidableEq

structure RspPutFile where
  error : Option ErrorInfo
  sessionId : Int
  fragmentIndex : Int
  deriving DecidableEq

/-- `RspGetFileSession`, and `RspNodeGetFileSession` with the same fields. -/
structure RspGetFileSession where
  error : Option ErrorInfo
  sessionId : Int
  maxFragment : Int
  deriving DecidableEq

structure ReqGetFile where
  sessionId : Int
  fragmentIndex : Int
  deriving DecidableEq

structure RspGetFile where
  error : Option ErrorInfo
  sessionId : Int
  fragmentIndex : Int
  fragmentContent : List UInt8
  deriving DecidableEq

inductive Message
  | rspError (error : ErrorInfo)
  | reqPing (second microsecond : Int)
  | rspPing (second microsecond : Int)
  | reqRegisterUser (username password : Text)
  | rspRegisterUser (user : User)
  | reqLoginUser (userId : Int) (password : Text)
  | rspLoginUser
  | reqRemoveUser (userId : Int)
  | rspRemoveUser
  | reqFindUser (userId : Int) (username : Text)
  | rspFindUser (user : User)
  | reqRegisterGroup (groupName : Text)
  | rspRegisterGroup (groupId : Int)
  | reqFindGroup (groupId : Int) (groupName : Text)
  | rspFindGroup (group : SharingGroup)
  | reqJoinGroup (groupId : Int)
  | rspJoinGroup
  | reqAssignAsManager (groupId userId : Int)
  | rspAssignAsManager
  | reqAssignAsMember (groupId userId : Int)
  | rspAssignAsMember
  | reqKickOutUser (groupId userId : Int)
  | rspKickOutUser
  | reqListFile (groupId : Int) (filePath : Text)
  | rspListFile (fileList : List File)
  | reqPutFileSession (request : ReqPutFileSession)
  | rspPutFileSession (response : RspPutFileSession)
  | reqNodePutFileSession (request : ReqNodePutFileSession)
  | rspNodePutFileSession (response : RspNodePutFileSession)
  | reqPutFile (request : ReqPutFile)
  | rspPutFile (response : RspPutFile)
  | reqGetFileSession (groupId : Int) (filePath : Text)
  | rspGetFileSession (response : RspGetFileSession)
  | reqNodeGetFileSession (filePath : Text)
  | rspNodeGetFileSession (response : RspGetFileSession)
  | reqGetFile (request : ReqGetFile)
  | rspGetFile (response : RspGetFile)
  | reqCreatePath (groupId : Int) (path : Text)
  | rspCreatePath
  | reqRemovePath (groupId : Int) (path : Text) (forceRemoveAll : Bool)
  deriving DecidableEq

namespace Message

/-- `protocol::get_command`, from the table of `command.details`. -/
def command : Message → Int
  | rspError _ => 1000
  | reqPing _ _ => 1001
  | rspPing _ _ => 1002
  | reqRegisterUser _ _ => 1003
  | rspRegisterUser _ => 1004
  | reqLoginUser _ _ => 1005
  | rspLoginUser => 1006
  | reqRemoveUser _ => 1007
  | rspRemoveUser => 1008
  | reqFindUser _ _ => 1009
  | rspFindUser _ => 1010
  | reqRegisterGroup _ => 1011
  | rspRegisterGroup _ => 1012
  | reqFindGroup _ _ => 1015
  | rspFindGroup _ => 1016
  | reqJoinGroup _ => 1017
  | rspJoinGroup => 1018
  | reqAssignAsManager _ _ => 1019
  | rspAssignAsManager => 1020
  | reqAssignAsMember _ _ => 1021
  | rspAssignAsMember => 1022
  | reqKickOutUser _ _ => 1023
  | rspKickOutUser => 1024
  | reqListFile _ _ => 1025
  | rspListFile _ => 1026
  | reqPutFileSession _ => 1027
  | rspPutFileSession _ => 1028
  | reqNodePutFileSession _ => 1029
  | rspNodePutFileSession _ => 1030
  | reqPutFile _ => 1031
  | rspPutFile _ => 1032
  | reqGetFileSession _ _ => 1033
  | rspGetFileSession _ => 1034
  | reqNodeGetFileSession _ => 1035
  | rspNodeGetFileSession _ => 1036
  | reqGetFile _ => 1037
  | rspGetFile _ => 1038
  | reqCreatePath _ _ => 1039
  | rspCreatePath => 1040
  | reqRemovePath _ _ _ => 1041

/-- The numeric value of an error category. -/
def categoryValue : ErrorCategory → Int
  | .invalid => 0
  | .lights => 1
  | .spaceless => 2

def isRspError : Message → Bool
  | rspError _ => true
  | _ => false

/-- Parse a content as `RspNodePutFileSession`. -/
def asRspNodePutFileSession : Message → Option RspNodePutFileSession
  | rspNodePutFileSession response => some response
  | rspError error => some { error := some error, sessionId := 0 }
  | _ => none

/-- Parse a content as `RspPutFile`. -/
def asRspPutFile : Message → Option RspPutFile
  | rspPutFile response => some response
  | rspError error =>
      some { error := some error, sessionId := 0, fragmentIndex := 0 }
  | _ => none

/-- Parse a content as `RspNodeGetFileSession`. -/
def asRspNodeGetFileSession : Message → Option RspGetFileSession
  | rspNodeGetFileSession response => some response
  | rspError error =>
      some { error := some error, sessionId := 0, maxFragment := 0 }
  | _ => none

/-- Parse a content as `RspGetFile`. -/
def asRspGetFile : Message → Option RspGetFile
  | rspGetFile response => some response
  | rspError error =>
      some
        { error := some error, sessionId := 0, fragmentIndex := 0
          fragmentContent := [] }
  | _ => none

end Message

/-- The protocol of the programs; the command of a response is the one after
the command of its request.  How many bytes a message takes is left to the
serialisation. -/
def protocol (messageSize : Message → Nat) :
    Foundation.Protocol Message where
  command := Message.command
  messageSize := messageSize
  rspError := fun errorInfo => .rspError
    { category := Message.categoryValue errorInfo.category
      code := errorInfo.code }
  isRspError := Message.isRspError
  responseCommand := fun command => command + 1

end Protocol
end Spaceless
