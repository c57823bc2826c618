import Mathlib.Algebra.GroupWithZero.Nat
import Mathlib.Data.Nat.Log
import Spaceless.Protocol.Message

/-!
# Sizes of messages

`ByteSizeLong` of the generated code.  A field at its default takes no bytes,
any other one a byte for its number and its type before its value.
-/

namespace Spaceless
namespace Protocol

/-- `VarintSize32`, seven bits in a byte. -/
def varintSize32 (value : Nat) : Nat :=
  Nat.log 128 (value % 2 ^ 32) + 1

/-- `Int32Size`; a negative value is written as one of 64 bits. -/
def int32Size (value : Int) : Nat :=
  if value < 0 then 10 else varintSize32 value.toNat

/-- `LengthDelimitedSize`. -/
def lengthDelimitedSize (length : Nat) : Nat :=
  length + varintSize32 length

/-! ## Fields -/

def int32Field (value : Int) : Nat :=
  if value = 0 then 0 else 1 + int32Size value

def boolField (value : Bool) : Nat :=
  if value then 1 + 1 else 0

/-- A text, bytes or a packed list that takes that many bytes. -/
def lengthField (length : Nat) : Nat :=
  if length = 0 then 0 else 1 + lengthDelimitedSize length

/-- A message that takes that many bytes and is there. -/
def messageField (size : Nat) : Nat := 1 + lengthDelimitedSize size

def int32ListField (values : List Int) : Nat :=
  lengthField (values.map int32Size).sum

def fileTypeField : FileType → Nat
  | .generalFile => 0
  | .directory => 1 + 1

/-! ## Messages -/

def ErrorInfo.byteSizeLong (errorInfo : ErrorInfo) : Nat :=
  int32Field errorInfo.category + int32Field errorInfo.code

/-- The first field of every response. -/
def errorField : Option ErrorInfo → Nat
  | none => 0
  | some errorInfo => messageField errorInfo.byteSizeLong

def User.byteSizeLong (user : User) : Nat :=
  int32ListField user.groupList + lengthField user.userName.length +
    int32Field user.userId

def SharingGroup.byteSizeLong (group : SharingGroup) : Nat :=
  int32ListField group.managerList + int32ListField group.memberList +
    lengthField group.groupName.length + int32Field group.groupId +
    int32Field group.ownerId

def File.byteSizeLong (file : File) : Nat :=
  lengthField file.filename.length + fileTypeField file.type

namespace Message

def byteSizeLong : Message → Nat
  | rspError error => errorField (some error)
  | reqPing second microsecond => int32Field second + int32Field microsecond
  | rspPing second microsecond => int32Field second + int32Field microsecond
  | reqRegisterUser username password =>
      lengthField username.length + lengthField password.length
  | rspRegisterUser user => messageField user.byteSizeLong
  | reqLoginUser userId password =>
      lengthField password.length + int32Field userId
  | rspLoginUser => 0
  | reqRemoveUser userId => int32Field userId
  | rspRemoveUser => 0
  | reqFindUser userId username =>
      lengthField username.length + int32Field userId
  | rspFindUser user => messageField user.byteSizeLong
  | reqRegisterGroup groupName => lengthField groupName.length
  | rspRegisterGroup groupId => int32Field groupId
  | reqFindGroup groupId groupName =>
      lengthField groupName.length + int32Field groupId
  | rspFindGroup group => messageField group.byteSizeLong
  | reqJoinGroup groupId => int32Field groupId
  | rspJoinGroup => 0
  | reqAssignAsManager groupId userId => int32Field groupId + int32Field userId
  | rspAssignAsManager => 0
  | reqAssignAsMember groupId userId => int32Field groupId + int32Field userId
  | rspAssignAsMember => 0
  | reqKickOutUser groupId userId => int32Field groupId + int32Field userId
  | rspKickOutUser => 0
  | reqListFile groupId filePath =>
      lengthField filePath.length + int32Field groupId
  | rspListFile fileList =>
      (fileList.map fun file => messageField file.byteSizeLong).sum
  | reqPutFileSession request =>
      lengthField request.filePath.length + int32Field request.groupId +
        int32Field request.maxFragment
  | rspPutFileSession response =>
      errorField response.error + int32Field response.sessionId +
        int32Field response.nextFragment
  | reqNodePutFileSession request =>
      lengthField request.filePath.length + int32Field request.maxFragment
  | rspNodePutFileSession response =>
      errorField response.error + int32Field response.sessionId
  | reqPutFile request =>
      lengthField request.fragmentContent.length +
        int32Field request.sessionId + int32Field request.fragmentIndex
  | rspPutFile response =>
      errorField response.error + int32Field response.sessionId +
        int32Field response.fragmentIndex
  | reqGetFileSession groupId filePath =>
      lengthField filePath.length + int32Field groupId
  | rspGetFileSession response =>
      errorField response.error + int32Field response.sessionId +
        int32Field response.maxFragment
  | reqNodeGetFileSession filePath => lengthField filePath.length
  | rspNodeGetFileSession response =>
      errorField response.error + int32Field response.sessionId +
        int32Field response.maxFragment
  | reqGetFile request =>
      int32Field request.sessionId + int32Field request.fragmentIndex
  | rspGetFile response =>
      errorField response.error + lengthField response.fragmentContent.length +
        int32Field response.sessionId + int32Field response.fragmentIndex
  | reqCreatePath groupId path => lengthField path.length + int32Field groupId
  | rspCreatePath => 0
  | reqRemovePath groupId path forceRemoveAll =>
      lengthField path.length + int32Field groupId + boolField forceRemoveAll

end Message

/-! ## Bounds -/

theorem varintSize32_le (value : Nat) : varintSize32 value ≤ 5 := by
  have small : value % 2 ^ 32 < 128 ^ 5 :=
    (Nat.mod_lt value (by decide)).trans (by decide)
  unfold varintSize32
  rcases Nat.eq_zero_or_pos (value % 2 ^ 32) with zero | positive
  · rw [zero, Nat.log_zero_right]
    decide
  · exact Nat.log_lt_of_lt_pow positive.ne' small

theorem int32Size_le (value : Int) : int32Size value ≤ 10 := by
  unfold int32Size
  split
  · exact Nat.le_refl _
  · exact (varintSize32_le _).trans (by decide)

theorem int32Field_le (value : Int) : int32Field value ≤ 11 := by
  unfold int32Field
  split
  · exact Nat.zero_le _
  · exact Nat.add_le_add_left (int32Size_le value) 1

theorem errorField_le (error : Option ErrorInfo) : errorField error ≤ 28 := by
  cases error with
  | none => exact Nat.zero_le _
  | some errorInfo =>
      have category := int32Field_le errorInfo.category
      have code := int32Field_le errorInfo.code
      have length := varintSize32_le errorInfo.byteSizeLong
      simp only [errorField, messageField, lengthDelimitedSize]
      unfold ErrorInfo.byteSizeLong at length ⊢
      omega

end Protocol
end Spaceless
