import Spaceless.Foundation.Exception

/-!
# Error codes of the storage node
-/

namespace Spaceless
namespace StorageNode

open Foundation

/-- Error codes of `core.h` that the modelled code throws. -/
inductive ErrorCode
  | errFileNotExist
  | errFileSessionAlreadyExist
  | errFileSessionNotExist
  | errFileSessionInvalidFragment
  | errFileSessionCannotChangeMaxFragment
  deriving DecidableEq

/-- Number of an error code on the wire. -/
def ErrorCode.value : ErrorCode → Int
  | .errFileNotExist => 1202
  | .errFileSessionAlreadyExist => 5000
  | .errFileSessionNotExist => 5002
  | .errFileSessionInvalidFragment => 5003
  | .errFileSessionCannotChangeMaxFragment => 5004

/-- `SPACELESS_THROW` with a code of the storage node. -/
def ErrorCode.fault (code : ErrorCode) : Fault :=
  .exception (.spaceless code.value)

end StorageNode
end Spaceless
