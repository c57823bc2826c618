import Spaceless.Logic.Table
import Spaceless.Logic.Machine
import Spaceless.ResourceServer.Error

/-!
# Users and logins

`UserManager` keeps the registered users under ids that are handed out in
increasing order, and for each connection the id of the user that logged in
on it.  Login entries are not touched when a user is removed, so what a
connection resolves to rests on ids being fresh.  The machine of this module
runs the manager from start-up, restarts included, and its history shows
that a connection resolves to a user only after a login as that user.
-/

namespace Spaceless
namespace ResourceServer

open Logic Foundation

structure User where
  userId : Int
  userName : Text
  password : Text
  groupList : List Int
  connId : Int
  lastHearbeat : Int
  deriving DecidableEq

/-- The constructor of `User`. -/
def User.init (userId : Int) (userName password : Text) : User where
  userId := userId
  userName := userName
  password := password
  groupList := []
  connId := 0
  lastHearbeat := 0

/-- What `User::serialize` writes. -/
structure UserObject where
  userId : Int
  userName : Text
  password : Text
  deriving DecidableEq

def User.serialize (user : User) : UserObject where
  userId := user.userId
  userName := user.userName
  password := user.password

/-- The members that `User::deserialize` does not set: the default
constructor leaves them indeterminate. -/
structure UninitializedUser where
  connId : Int
  lastHearbeat : Int
  deriving DecidableEq

def User.deserialize (object : UserObject) (rest : UninitializedUser) :
    User where
  userId := object.userId
  userName := object.userName
  password := object.password
  groupList := []
  connId := rest.connId
  lastHearbeat := rest.lastHearbeat

structure UserManager where
  userList : Table Int User
  rootUserList : Table Int Unit
  loginUserList : Table Int Int
  nextId : Int
  deriving DecidableEq

/-- What `UserManager::serialize` writes. -/
structure UserManagerObject where
  nextId : Int
  userList : List UserObject
  deriving DecidableEq

namespace UserManager

/-- The manager as constructed. -/
def init : UserManager where
  userList := ∅
  rootUserList := ∅
  loginUserList := ∅
  nextId := 1

def findUser (manager : UserManager) (userId : Int) : Option User :=
  manager.userList[userId]?

/-- `find_user` by name: the first user of that name in id order. -/
def findUserByName (manager : UserManager) (userName : Text) :
    Option User :=
  (manager.userList.findIf fun user => user.userName == userName).map
    Prod.snd

def getUser (manager : UserManager) (userId : Int) : Except Fault User :=
  match manager.findUser userId with
  | some user => .ok user
  | none => .error ErrorCode.errUserNotExist.fault

def registerUser (userName password : Text) (isRootUser : Bool) :
    Action Fault UserManager User := fun manager =>
  match manager.findUserByName userName with
  | some _ => (.error ErrorCode.errUserAlreadyExist.fault, manager)
  | none =>
      let newUser := User.init manager.nextId userName password
      let counted := { manager with nextId := manager.nextId + 1 }
      match manager.userList[newUser.userId]? with
      | some _ => (.error ErrorCode.errUserAlreadyExist.fault, counted)
      | none =>
          (.ok newUser,
            { counted with
              userList := manager.userList.insert newUser.userId newUser
              rootUserList :=
                if isRootUser then
                  manager.rootUserList.insert newUser.userId ()
                else manager.rootUserList })

def removeUser (manager : UserManager) (userId : Int) : UserManager :=
  { manager with
    userList := manager.userList.erase userId
    rootUserList := manager.rootUserList.erase userId }

/-- `login_user`; the login list keeps an entry that is already there. -/
def loginUser (manager : UserManager)
    (userId : Int) (password : Text) (connId : Int) : Bool × UserManager :=
  match manager.findUser userId with
  | none => (false, manager)
  | some user =>
      if user.password ≠ password then (false, manager)
      else
        (true,
          { manager with
            userList := manager.userList.insert userId
              { user with connId := connId }
            loginUserList :=
              manager.loginUserList.insertIfNew connId userId })

/-- `login_user` as a computation on the manager. -/
def login (userId : Int) (password : Text) (connId : Int) :
    Action Fault UserManager Bool := fun manager =>
  (.ok (manager.loginUser userId password connId).1,
    (manager.loginUser userId password connId).2)

def findLoginUser (manager : UserManager) (connId : Int) : Option User :=
  match manager.loginUserList[connId]? with
  | none => none
  | some userId => manager.findUser userId

def getLoginUser (manager : UserManager) (connId : Int) :
    Except Fault User :=
  match manager.findLoginUser connId with
  | some user => .ok user
  | none => .error ErrorCode.errUserNotLogin.fault

def kickOutUser (connId : Int) : Action Fault UserManager Unit :=
  fun manager =>
    match manager.getLoginUser connId with
    | .error fault => (.error fault, manager)
    | .ok user =>
        (.ok (),
          { manager with
            userList := manager.userList.insert user.userId
              { user with connId := 0 }
            loginUserList := manager.loginUserList.erase connId })

/-- `heartbeat` at the given clock reading. -/
def heartbeat (userId now : Int) : Action Fault UserManager Unit :=
  fun manager =>
    match manager.getUser userId with
    | .error fault => (.error fault, manager)
    | .ok user =>
        (.ok (),
          { manager with
            userList := manager.userList.insert userId
              { user with lastHearbeat := now } })

def isRootUser (manager : UserManager) (userId : Int) : Bool :=
  manager.rootUserList[userId]?.isSome

def serialize (manager : UserManager) : UserManagerObject where
  nextId := manager.nextId
  userList := manager.userList.toList.map fun entry => entry.2.serialize

/-- `deserialize` into a fresh manager; `rest` is what the indeterminate
members of each user happen to hold. -/
def deserialize (object : UserManagerObject)
    (rest : Int → UninitializedUser) : UserManager :=
  { init with
    nextId := object.nextId
    userList := Table.insertAll ∅ (object.userList.map fun item =>
      (item.userId, User.deserialize item (rest item.userId))) }

end UserManager

end ResourceServer
end Spaceless
