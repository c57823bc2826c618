import Spaceless.Foundation.Send
import Spaceless.Foundation.Stream

/-!
# Packages over a secure connection

The sender encrypts the content in place, up to the next multiple of the
block size; the receiver asks its buffer for as many bytes.  The limit of
`send_protocol` is on the plain content, the limit of the buffer on the cipher
text.
-/

namespace Spaceless
namespace Foundation

open Crypto Logic

/-- A package of `send_protocol`: the buffer of `register_package` has room
for whole blocks, and the content is within the limit. -/
structure ProtocolPackage where
  header : PackageHeader
  contentBuffer : List UInt8
  inRange : header.InRange
  version : header.version = packageVersion
  command : header.command ≠ ntfSecuritySetting
  nonneg : 0 ≤ header.contentLength
  limit : header.contentLength ≤ maxContentLen
  length : contentBuffer.length = contentBufferLength header.contentLength

namespace ProtocolPackage

/-- `Package::content`. -/
def content (package : ProtocolPackage) : List UInt8 :=
  package.contentBuffer.take (sizeOfInt package.header.contentLength)

def toPackageEntry (package : ProtocolPackage) : PackageEntry where
  header := package.header
  contentBuffer := package.contentBuffer
  lengthCalculator := none

end ProtocolPackage

/-- `SecureConnection::send_package` once it is started, up to the call of
`send_raw_package`. -/
def SecureConnection.sendPackage (encryptor : AesBlockEncryptor)
    (package : PackageEntry) : PackageEntry :=
  let cipherLen := sizeOfInt (getContentLength package.header.contentLength)
  { package with
    contentBuffer :=
      encryptBlocks encryptor (cipherLen / aesBlockSize)
        package.contentBuffer
    lengthCalculator := some aesCipherLength }

/-- The last byte of a header of this version has arrived. -/
theorem Connection.afterHeader_of_take {header : PackageHeader}
    (inRange : header.InRange) (version : header.version = packageVersion)
    {connection : Connection} (complete : connection.receiveLen = headerLen)
    (starts : connection.receiveBuffer.data.take headerLen =
      header.toBytes) :
    connection.afterHeader =
      { connection with receiveLen := 0, receiveState := .receiveContent } := by
  have part : connection.receiveBuffer.data.take connection.receiveLen =
      header.toBytes.take connection.receiveLen := by
    rw [complete, starts]
    exact (List.take_of_length_le (Nat.le_refl _)).symm
  unfold afterHeader
  rw [processCheckPackageVersion_of_take inRange version part]
  exact if_pos complete

namespace ProtocolPackage

variable {encryptor : AesBlockEncryptor} {decryptor : AesBlockDecryptor}

/-- The bytes of the package on the wire. -/
def wire (encryptor : AesBlockEncryptor) (package : ProtocolPackage) :
    List UInt8 :=
  (SecureConnection.sendPackage encryptor package.toPackageEntry).validBytes

/-- The cipher text. -/
def body (encryptor : AesBlockEncryptor) (package : ProtocolPackage) :
    List UInt8 :=
  encryptBlocks encryptor (package.contentBuffer.length / aesBlockSize)
    package.contentBuffer

/-- A secure connection between two packages. -/
structure Idle (connection : Connection) : Prop where
  opened : connection.status = .opened
  state : connection.receiveState = .receiveHeader
  receiveLen : connection.receiveLen = 0

/-- However the bytes are cut, the peer stays open and delivers the package
once they have all arrived and its loop waits for more. -/
def Accepted (encryptor : AesBlockEncryptor) (decryptor : AesBlockDecryptor)
    (package : ProtocolPackage) : Prop :=
  ∀ receiveBuffer before events connection,
    Idle before → .called .closedByPeer ∉ events →
    Connection.received events <+: package.wire encryptor →
    (Connection.machine (some decryptor) receiveBuffer).run before events =
      some connection →
    connection.status = .opened ∧ connection.Proceeds (some decryptor) ∧
      (Connection.received events = package.wire encryptor →
        connection.Returns (some decryptor) →
        ∃ pushed, connection.inQueue = before.inQueue ++ [pushed] ∧
          pushed.header = package.header ∧
          pushed.content = package.content)

/-! ## The lengths -/

/-- The lengths of sender and receiver agree. -/
theorem lengths (package : ProtocolPackage) :
    getContentLength package.header.contentLength =
        package.contentBuffer.length ∧
      package.contentBuffer.length % aesBlockSize = 0 ∧
      package.header.contentLength ≤ package.contentBuffer.length ∧
      (package.contentBuffer.length : Int) <
        package.header.contentLength + 16 := by
  have nonneg := package.nonneg
  have limit := package.limit
  unfold maxContentLen at limit
  have size := sizeOfInt_of_nonneg nonneg (by omega)
  have fits : package.header.contentLength.toNat ≤
      18446744073709551600 := by omega
  obtain ⟨blocks, above, least⟩ := aesCipherLength_of_le fits
  rw [package.length]
  unfold getContentLength contentBufferLength aesBlockSize
  rw [size, intOfSize_of_lt (by omega)]
  exact ⟨rfl, blocks, by omega, by omega⟩

theorem length_body (package : ProtocolPackage) :
    (package.body encryptor).length = package.contentBuffer.length :=
  length_encryptBlocks encryptor (Nat.div_mul_le_self _ _)

/-- All of the encrypted buffer is sent. -/
theorem wire_eq (package : ProtocolPackage) :
    package.wire encryptor =
      package.header.toBytes ++ package.body encryptor := by
  obtain ⟨same, -, -, below⟩ := package.lengths
  have limit := package.limit
  unfold maxContentLen at limit
  have cipherLen : sizeOfInt
      (getContentLength package.header.contentLength) =
        package.contentBuffer.length := by
    rw [same, sizeOfInt_of_nonneg (Int.natCast_nonneg _) (by omega)]
    exact Int.toNat_natCast _
  have data : (SecureConnection.sendPackage encryptor
      package.toPackageEntry).data =
        package.header.toBytes ++ package.body encryptor := by
    unfold PackageEntry.data SecureConnection.sendPackage body
    dsimp only [toPackageEntry]
    rw [cipherLen]
  have validLength : (SecureConnection.sendPackage encryptor
      package.toPackageEntry).validLength =
        headerLen + package.contentBuffer.length := by
    change (headerLen + contentBufferLength package.header.contentLength) %
      18446744073709551616 = _
    rw [← package.length, Nat.mod_eq_of_lt]
    unfold headerLen
    omega
  unfold wire PackageEntry.validBytes
  rw [data, validLength]
  have length : (package.header.toBytes ++
      package.body encryptor).length =
        headerLen + package.contentBuffer.length := by
    rw [List.length_append, package.header.length_toBytes,
      package.length_body]
  exact List.take_of_length_le (Nat.le_of_eq length)

/-! ## Whether the peer accepts the package -/

/-- What the peer reads, if its buffer can hold the cipher text. -/
def toWirePackage (package : ProtocolPackage) (encryptor : AesBlockEncryptor)
    (decryptor : AesBlockDecryptor)
    (small : package.contentBuffer.length ≤ maxContentLen) :
    WirePackage (some decryptor) where
  header := package.header
  body := package.body encryptor
  inRange := package.inRange
  version := package.version
  command := package.command
  length := by
    rw [package.length_body]
    exact package.lengths.1
  small := by
    rw [package.length_body]
    exact small

/-- The decrypted package. -/
theorem eq_of_delivered
    (inverts : ∀ block, block.length = aesBlockSize →
      decryptor.decrypt (encryptor.encrypt block) = block)
    (package : ProtocolPackage)
    (small : package.contentBuffer.length ≤ maxContentLen)
    {pushed : InPackage}
    (delivered : (package.toWirePackage encryptor decryptor small).Delivered
      pushed) :
    pushed.header = package.header ∧ pushed.content = package.content := by
  obtain ⟨header, decrypted⟩ := delivered
  have blocks := package.lengths.2.1
  have whole : package.contentBuffer.length =
      package.contentBuffer.length / aesBlockSize * aesBlockSize := by
    rw [Nat.div_mul_cancel (Nat.dvd_of_mod_eq_zero blocks)]
  change aesDecrypt decryptor (package.body encryptor)
    (package.body encryptor).length = .ok pushed.contentBuffer at decrypted
  have plain := aesDecrypt_encryptBlocks inverts whole
  rw [package.length_body, whole] at decrypted
  have same : package.contentBuffer = pushed.contentBuffer :=
    Except.ok.inj (plain.symm.trans decrypted)
  refine ⟨header, ?_⟩
  change pushed.header = package.header at header
  unfold InPackage.content content
  rw [header, same]

theorem accepted_of_le
    (inverts : ∀ block, block.length = aesBlockSize →
      decryptor.decrypt (encryptor.encrypt block) = block)
    (package : ProtocolPackage)
    (short : package.header.contentLength ≤ 65504) :
    package.Accepted encryptor decryptor := by
  intro receiveBuffer before events connection idle connected arrives runs
  have small : package.contentBuffer.length ≤ maxContentLen := by
    obtain ⟨-, blocks, -, below⟩ := package.lengths
    unfold aesBlockSize at blocks
    unfold maxContentLen
    omega
  let sent := package.toWirePackage encryptor decryptor small
  have stream : package.wire encryptor = WirePackage.stream [sent] := by
    rw [package.wire_eq, WirePackage.stream_cons, WirePackage.stream_nil,
      List.append_nil]
    rfl
  have reads : Connection.Reads before.inQueue [] [sent] [] before := by
    refine ⟨idle.opened, ?_, ⟨[], (List.append_nil _).symm, .nil⟩, ?_⟩
    · simp [Connection.pending, idle.state, idle.receiveLen]
    · unfold Connection.Amid
      rw [idle.state, idle.receiveLen]
      exact Nat.succ_pos _
  rw [stream] at arrives ⊢
  obtain ⟨done, rest, same, reads⟩ :=
    reads.run connected (List.nil_append [sent]) runs arrives
  refine ⟨reads.opened, reads.proceeds, fun whole returns => ?_⟩
  rw [whole, List.nil_append, ← same] at reads
  obtain rfl := reads.complete returns
  rw [List.append_nil] at same
  obtain ⟨pushed, queue, all⟩ := reads.pushed
  rw [same] at all
  rcases all with _ | ⟨delivered, last⟩
  cases last
  exact ⟨_, queue, package.eq_of_delivered inverts small delivered⟩

/-- A header whose cipher text does not fit closes the peer at once. -/
theorem not_accepted_of_gt (package : ProtocolPackage)
    (long : 65504 < package.header.contentLength) :
    ¬package.Accepted encryptor decryptor := by
  intro accepted
  obtain ⟨buffer⟩ : Nonempty PackageBuffer := ⟨PackageBuffer.init⟩
  have bounds := buffer.length_bounds
  have fits : 0 + package.header.toBytes.length ≤ buffer.length := by
    rw [package.header.length_toBytes, headerLen]
    omega
  let arrived : Connection :=
    ((Connection.init buffer).ask 0 headerLen).accept 0
      package.header.toBytes fits
  have starts : arrived.receiveBuffer.data.take headerLen =
      package.header.toBytes := by
    have written : arrived.receiveBuffer.data.take
        (0 + package.header.toBytes.length) =
          buffer.data.take 0 ++ package.header.toBytes :=
      Content.take_writeAt_end (Nat.zero_le _)
    rwa [package.header.length_toBytes, Nat.zero_add] at written
  let reading : Connection :=
    { arrived with receiveLen := 0, receiveState := .receiveContent }
  have header : reading.header = package.header :=
    PackageHeader.of_take package.inRange starts
  have first : (Connection.init buffer).step (some decryptor)
      (.called (.received package.header.toBytes)) = some reading := by
    have whole : arrived.afterHeader = reading :=
      Connection.afterHeader_of_take package.inRange package.version rfl
        starts
    rw [← whole]
    exact dif_pos fits
  have large : maxContentLen <
      readContentLen (some decryptor) reading.header.contentLength := by
    obtain ⟨same, blocks, above, -⟩ := package.lengths
    rw [header]
    change (maxContentLen : Int) <
      getContentLength package.header.contentLength
    unfold aesBlockSize at blocks
    unfold maxContentLen
    omega
  have below : readContentLen (some decryptor)
      reading.header.contentLength < 2147483648 :=
    (intOfSize_range _).2
  have second : reading.step (some decryptor) .passed =
      some reading.close := by
    have iterates : reading.iteration (some decryptor) =
        reading.receiveContent (some decryptor) := rfl
    apply Connection.step_passed
    · rfl
    · rw [iterates, Connection.receiveContent_tooLarge large below]
  obtain ⟨opened, -⟩ := accepted buffer (Connection.init buffer)
    [.called (.received package.header.toBytes), .passed] reading.close
    ⟨rfl, rfl, rfl⟩ (by simp)
    (by simp [package.wire_eq, Connection.received, Connection.Event.bytes])
    (by simp [Connection.machine, first, second])
  cases opened

/-- The cipher text fits in the buffer of the peer exactly if the content has
at most 65504 bytes, the last multiple of the block size in the limit. -/
theorem accepted_iff
    (inverts : ∀ block, block.length = aesBlockSize →
      decryptor.decrypt (encryptor.encrypt block) = block)
    (package : ProtocolPackage) :
    package.Accepted encryptor decryptor ↔
      package.header.contentLength ≤ 65504 := by
  constructor
  · intro accepted
    by_contra long
    exact package.not_accepted_of_gt (by omega) accepted
  · exact package.accepted_of_le inverts

/-- A package whose content is zero. -/
def zeros (contentLength : Nat) (limit : contentLength ≤ maxContentLen) :
    ProtocolPackage where
  header := ⟨packageVersion, 1030, contentLength, 1, 0⟩
  contentBuffer := List.replicate (contentBufferLength contentLength) 0
  inRange := by
    unfold maxContentLen at limit
    constructor <;> dsimp only [packageVersion] <;> omega
  version := rfl
  command := (by decide : (1030 : Int) ≠ ntfSecuritySetting)
  nonneg := Int.natCast_nonneg _
  limit := Int.ofNat_le.mpr limit
  length := List.length_replicate

/-- A block cipher that copies. -/
def copyEncryptor : AesBlockEncryptor where
  encrypt block := block
  length_encrypt _ length := length

theorem copyDecryptor_inverts (block : List UInt8)
    (_ : block.length = aesBlockSize) :
    Connection.copyDecryptor.decrypt (copyEncryptor.encrypt block) =
      block := rfl

/-- The longest content that arrives. -/
theorem accepted_iff_zeros :
    (zeros 65504 (by decide)).Accepted copyEncryptor
      Connection.copyDecryptor :=
  (accepted_iff copyDecryptor_inverts (zeros 65504 (by decide))).mpr
    (by decide)

/-- One byte more is within the limit of `send_protocol`, and closes the
peer. -/
theorem not_accepted_zeros :
    (∀ block, block.length = aesBlockSize →
        Connection.copyDecryptor.decrypt (copyEncryptor.encrypt block) =
          block) ∧
      ¬(zeros 65505 (by decide)).Accepted copyEncryptor
        Connection.copyDecryptor :=
  ⟨copyDecryptor_inverts, not_accepted_of_gt _ (by decide)⟩

end ProtocolPackage

end Foundation
end Spaceless
