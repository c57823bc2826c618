import Mathlib.Data.List.Forall2
import Spaceless.Foundation.Receive

/-!
# Packages as bytes

The header lies in the buffer field after field in little-endian order, and
the content follows it.  What a peer sends is one package after another; a
secure connection reads whole blocks behind each header.
-/

namespace Spaceless
namespace Foundation

open Crypto Logic

namespace PackageHeader

/-- The fields are values of their types. -/
structure InRange (header : PackageHeader) : Prop where
  version : -32768 ≤ header.version ∧ header.version < 32768
  command : -2147483648 ≤ header.command ∧ header.command < 2147483648
  contentLength : -2147483648 ≤ header.contentLength ∧
    header.contentLength < 2147483648
  selfPackageId : -2147483648 ≤ header.selfPackageId ∧
    header.selfPackageId < 2147483648
  triggerPackageId : -2147483648 ≤ header.triggerPackageId ∧
    header.triggerPackageId < 2147483648

/-- The header as it lies in memory. -/
def toBytes (header : PackageHeader) : List UInt8 :=
  bytesOfShort header.version ++ bytesOfInt header.command ++
    bytesOfInt header.contentLength ++ bytesOfInt header.selfPackageId ++
    bytesOfInt header.triggerPackageId

@[simp] theorem length_toBytes (header : PackageHeader) :
    header.toBytes.length = headerLen := rfl

/-- A header is read back from the start of a buffer. -/
theorem ofBytes_toBytes {header : PackageHeader} (inRange : header.InRange)
    (rest : List UInt8) : ofBytes (header.toBytes ++ rest) = header := by
  have fields : ofBytes (header.toBytes ++ rest) =
      { version := shortOfBytes (bytesOfShort header.version)
        command := intOfBytes (bytesOfInt header.command)
        contentLength := intOfBytes (bytesOfInt header.contentLength)
        selfPackageId := intOfBytes (bytesOfInt header.selfPackageId)
        triggerPackageId :=
          intOfBytes (bytesOfInt header.triggerPackageId) } := rfl
  rw [fields,
    shortOfBytes_bytesOfShort inRange.version.1 inRange.version.2,
    intOfBytes_bytesOfInt inRange.command.1 inRange.command.2,
    intOfBytes_bytesOfInt inRange.contentLength.1 inRange.contentLength.2,
    intOfBytes_bytesOfInt inRange.selfPackageId.1 inRange.selfPackageId.2,
    intOfBytes_bytesOfInt inRange.triggerPackageId.1
      inRange.triggerPackageId.2]

/-- A buffer that starts with the bytes of a header. -/
theorem of_take {header : PackageHeader} (inRange : header.InRange)
    {buffer : PackageBuffer}
    (starts : buffer.data.take headerLen = header.toBytes) :
    buffer.header = header := by
  have same : buffer.data.take headerLen =
      (header.toBytes ++ []).take headerLen := by
    rw [starts, List.append_nil, List.take_of_length_le (by simp)]
  exact (ofBytes_congr same).trans (ofBytes_toBytes inRange [])

end PackageHeader

/-- The content of a package in the in queue, `Package::content`. -/
def InPackage.content (package : InPackage) : List UInt8 :=
  package.contentBuffer.take (sizeOfInt package.header.contentLength)

/-- A package that an open connection takes: one of this version, no security
setting, with a body of the length that its header announces. -/
structure WirePackage (secureConn : Option AesBlockDecryptor) where
  header : PackageHeader
  body : List UInt8
  inRange : header.InRange
  version : header.version = packageVersion
  command : header.command ≠ ntfSecuritySetting
  length : readContentLen secureConn header.contentLength = body.length
  small : body.length ≤ maxContentLen

namespace WirePackage

variable {secureConn : Option AesBlockDecryptor}

/-- The package as it is sent. -/
def bytes (package : WirePackage secureConn) : List UInt8 :=
  package.header.toBytes ++ package.body

/-- Packages one after another. -/
def stream (packages : List (WirePackage secureConn)) : List UInt8 :=
  packages.flatMap bytes

/-- The package in the in queue: a plain body is the content, and a cipher
text is decrypted. -/
def Delivered (package : WirePackage secureConn) (pushed : InPackage) :
    Prop :=
  pushed.header = package.header ∧
    match secureConn with
    | none => pushed.content = package.body
    | some decryptor =>
        aesDecrypt decryptor package.body package.body.length =
          .ok pushed.contentBuffer

@[simp] theorem length_bytes (package : WirePackage secureConn) :
    package.bytes.length = headerLen + package.body.length := by
  simp [bytes]

@[simp] theorem stream_nil :
    stream ([] : List (WirePackage secureConn)) = [] := rfl

@[simp] theorem stream_cons (package : WirePackage secureConn)
    (packages : List (WirePackage secureConn)) :
    stream (package :: packages) = package.bytes ++ stream packages := rfl

@[simp] theorem stream_append
    (first second : List (WirePackage secureConn)) :
    stream (first ++ second) = stream first ++ stream second :=
  List.flatMap_append

theorem take_bytes (package : WirePackage secureConn) :
    package.bytes.take headerLen = package.header.toBytes := by
  rw [bytes, List.take_append_of_le_length (by simp)]
  exact List.take_of_length_le (by simp)

/-- A buffer that starts with the header of the package. -/
theorem header_of_take (package : WirePackage secureConn)
    {buffer : PackageBuffer}
    (starts : buffer.data.take headerLen = package.header.toBytes) :
    buffer.header = package.header :=
  PackageHeader.of_take package.inRange starts

end WirePackage

namespace Connection

variable {secureConn : Option AesBlockDecryptor}

/-- A secure connection always reads whole blocks. -/
theorem getContentLength_mod (rawLength : Int) :
    getContentLength rawLength % 16 = 0 := by
  unfold getContentLength intOfSize aesCipherLength aesBlockSize
  dsimp only
  split <;> split <;> omega

/-- The content of a plain package that lies in the buffer. -/
theorem plainPackage_content {connection : Connection} {body : List UInt8}
    (length : connection.header.contentLength = body.length)
    (small : body.length ≤ maxContentLen)
    (there : (connection.receiveBuffer.data.drop headerLen).take
      body.length = body) : connection.plainPackage.content = body := by
  unfold maxContentLen at small
  have size : sizeOfInt connection.header.contentLength = body.length := by
    rw [length, sizeOfInt_of_nonneg (Int.natCast_nonneg _) (by omega)]
    exact Int.toNat_natCast _
  have enough : body.length ≤
      contentBufferLength connection.header.contentLength := by
    rw [contentBufferLength, size]
    exact (aesCipherLength_of_le (by omega)).2.1
  change (List.take _ _).take (sizeOfInt connection.header.contentLength) = _
  rw [size, there, List.take_take, Nat.min_eq_left enough,
    List.take_left' rfl]

/-- The decryption of a secure package that lies in the buffer. -/
theorem decryptPackage_eq {decryptor : AesBlockDecryptor}
    {connection : Connection} {body : List UInt8}
    (length : getContentLength connection.header.contentLength = body.length)
    (small : body.length ≤ maxContentLen)
    (there : (connection.receiveBuffer.data.drop headerLen).take
      body.length = body) :
    connection.decryptPackage decryptor =
      (aesDecrypt decryptor body body.length).map fun plain =>
        ⟨connection.header, plain⟩ := by
  unfold maxContentLen at small
  have range := header_range connection
  have blocks := getContentLength_mod connection.header.contentLength
  have size : sizeOfInt (body.length : Int) = body.length := by
    rw [sizeOfInt_of_nonneg (Int.natCast_nonneg _) (by omega)]
    exact Int.toNat_natCast _
  have whole : contentBufferLength (body.length : Int) = body.length := by
    rw [contentBufferLength, size, aesCipherLength_of_dvd] <;> omega
  unfold decryptPackage
  rw [intOfSize_sizeOfInt range.1 range.2, length]
  dsimp only
  rw [size, there, whole]

/-- The package lies in the buffer: the connection pushes it. -/
theorem onReceiveCompletePackage_delivers
    (package : WirePackage secureConn) {connection : Connection}
    (complete : connection.receiveBuffer.data.take
      (headerLen + package.body.length) = package.bytes) :
    ∃ pushed, package.Delivered pushed ∧
      connection.onReceiveCompletePackage secureConn =
        connection.push pushed := by
  have starts : connection.receiveBuffer.data.take headerLen =
      package.header.toBytes := by
    rw [← package.take_bytes, ← complete, List.take_take,
      Nat.min_eq_left (Nat.le_add_right _ _)]
  have header : connection.header = package.header :=
    package.header_of_take starts
  have body : (connection.receiveBuffer.data.drop headerLen).take
      package.body.length = package.body := by
    rw [List.take_drop, complete, WirePackage.bytes]
    exact List.drop_left' package.header.length_toBytes
  have length := package.length
  have command := package.command
  rw [← header] at length command
  unfold onReceiveCompletePackage
  rw [if_neg command]
  cases secureConn with
  | none =>
      exact ⟨connection.plainPackage,
        ⟨header, plainPackage_content length package.small body⟩, rfl⟩
  | some decryptor =>
      have decrypts : connection.decryptPackage decryptor = _ :=
        decryptPackage_eq length package.small body
      obtain ⟨plain, decrypted, -⟩ := aesDecrypt_eq_ok decryptor
        (rfl : package.body.length = package.body.length)
      refine ⟨⟨connection.header, plain⟩, ⟨header, decrypted⟩, ?_⟩
      dsimp only
      rw [decrypts, decrypted]
      rfl

end Connection

end Foundation
end Spaceless
