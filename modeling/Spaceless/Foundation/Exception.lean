import Spaceless.Logic.Action

/-!
# Identifiers, texts, exceptions and faults

What `basics.h` and `exception.h` provide to every program: ids, error codes
of the framework, the exceptions that the code can throw and the error
information that a caught exception is turned into.
-/

namespace Spaceless
namespace Foundation

/-- The id that names nothing. -/
def invalidId : Int := 0

/-- A `std::string` as the list of its characters. -/
abbrev Text := List Char

/-- Error codes of the framework that the modelled code throws. -/
inductive ErrorCode
  | errNetworkPackageCannotParseToProtocol
  | errMultiplyPhaseTransactionAlreadyExist
  | errBoundTransactionAlreadyExist
  | errTransactionTimeout
  deriving DecidableEq

/-- Number of an error code on the wire. -/
def ErrorCode.value : ErrorCode → Int
  | .errNetworkPackageCannotParseToProtocol => 101
  | .errMultiplyPhaseTransactionAlreadyExist => 121
  | .errBoundTransactionAlreadyExist => 122
  | .errTransactionTimeout => 123

inductive ErrorCategory
  | invalid
  | lights
  | spaceless
  deriving DecidableEq

/-- Error info describes a unique error message. -/
structure ErrorInfo where
  category : ErrorCategory
  code : Int
  deriving DecidableEq

/-- The exceptions that the modelled code can throw: `SPACELESS_THROW`, a
`lights::Exception` itself, an exception of a class derived from it, and an
exception of the standard library or of Poco. -/
inductive Exception
  | spaceless (code : Int)
  | lights (code : Int)
  | openFileError
  | standard
  deriving DecidableEq

/-- How a computation stops early: by an exception, or in a way that no
handler of the program sees, which is a failed `LIGHTS_ASSERT` (it aborts the
process) or an operation whose behaviour C++ leaves undefined. -/
inductive Fault
  | exception (thrown : Exception)
  | undefined
  deriving DecidableEq

/-- `SPACELESS_THROW` with a code of the framework. -/
def ErrorCode.fault (code : ErrorCode) : Fault :=
  .exception (.spaceless code.value)

/-- `to_error_info` of a code of the framework. -/
def toErrorInfo (code : ErrorCode) : ErrorInfo where
  category := .spaceless
  code := code.value

/-- The error info that `safe_call` reports.  `get_error_info` compares the
exact class and asserts that it is one of two, so a class derived from
`lights::Exception` ends in the assertion; exceptions of other libraries
leave the default error info. -/
def getErrorInfo : Exception → Except Fault ErrorInfo
  | .spaceless code => .ok { category := .spaceless, code := code }
  | .lights code => .ok { category := .lights, code := code }
  | .openFileError => .error .undefined
  | .standard => .ok { category := .invalid, code := 0 }

end Foundation
end Spaceless
