import Spaceless.Foundation.Exception

/-!
# Error codes of the resource server
-/

namespace Spaceless
namespace ResourceServer

open Foundation

/-- Error codes of `core.h` and `transaction.cpp` that the modelled code
throws. -/
inductive ErrorCode
  | errUserAlreadyExist
  | errUserNotExist
  | errUserNotLogin
  | errGroupAlreadyExist
  | errGroupNotExist
  | errGroupNotPermitNeedOwner
  | errGroupNotPermitNeedManager
  | errGroupNotPermitNeedMember
  | errGroupCannotKickOutOwner
  | errGroupUserNotJoin
  | errGroupAlreadyIsManager
  | errGroupAlreadyIsMember
  | errGroupCannotRemoveRootDir
  | errGroupNotDirectory
  | errFileAlreadyExist
  | errFileNotExist
  | errNodeNotExist
  | errFileSessionAlreadyExist
  | errFileSessionNotExist
  | errFileSessionNotRegisterUser
  | errFileSessionInvalidFragment
  | errFileSessionCannotChangeMaxFragment
  | errUserLoginFailure
  | errUserNotPermission
  | errPathNotExist
  | errPathAlreadyExist
  | errPathNotGeneralFile
  deriving DecidableEq

/-- Number of an error code on the wire. -/
def ErrorCode.value : ErrorCode → Int
  | .errUserAlreadyExist => 1000
  | .errUserNotExist => 1001
  | .errUserNotLogin => 1010
  | .errGroupAlreadyExist => 1100
  | .errGroupNotExist => 1101
  | .errGroupNotPermitNeedOwner => 1102
  | .errGroupNotPermitNeedManager => 1103
  | .errGroupNotPermitNeedMember => 1104
  | .errGroupCannotKickOutOwner => 1106
  | .errGroupUserNotJoin => 1107
  | .errGroupAlreadyIsManager => 1108
  | .errGroupAlreadyIsMember => 1109
  | .errGroupCannotRemoveRootDir => 1110
  | .errGroupNotDirectory => 1112
  | .errFileAlreadyExist => 1200
  | .errFileNotExist => 1202
  | .errNodeNotExist => 1302
  | .errFileSessionAlreadyExist => 1400
  | .errFileSessionNotExist => 1402
  | .errFileSessionNotRegisterUser => 1403
  | .errFileSessionInvalidFragment => 1404
  | .errFileSessionCannotChangeMaxFragment => 1405
  | .errUserLoginFailure => 2001
  | .errUserNotPermission => 2002
  | .errPathNotExist => 2100
  | .errPathAlreadyExist => 2101
  | .errPathNotGeneralFile => 2102

/-- `SPACELESS_THROW` with a code of the resource server. -/
def ErrorCode.fault (code : ErrorCode) : Fault :=
  .exception (.spaceless code.value)

end ResourceServer
end Spaceless
