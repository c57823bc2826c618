import Spaceless.Foundation.Secure
import Spaceless.Logic.Action

/-!
# The opening of a connection

A connection holds packages back while it is opening, and a secure connection
while its crypto starts; what waits is sent when the state changes.  Here the
packages are followed by their identifiers through `PackageManager`, the lists
of a connection and the calls of `send_raw_package`; their bytes are the
concern of the socket.

The crypto library is a parameter, and so is what each call of `sendBytes`
does.
-/

namespace Spaceless
namespace Foundation
namespace Details

open Crypto Logic

def reqStartCrypto : Int := 3

def rspStartCrypto : Int := 4

inductive ConnectionOpenType
  | activeOpen
  | passiveOpen
  deriving DecidableEq

inductive SecuritySetting
  | closeSecurity
  | openSecurity
  deriving DecidableEq

def SecuritySetting.toByte : SecuritySetting → UInt8
  | .closeSecurity => 1
  | .openSecurity => 2

/-- `State` of `SecureConnection`. -/
inductive SecureState
  | starting
  | started
  deriving DecidableEq

/-- What a call of `sendBytes` on a whole package does: the socket accepts all
of it or a part, or the call throws. -/
inductive SendResult
  | whole
  | part
  | thrown
  deriving DecidableEq

/-- An exception of the socket, of the crypto library, or a failed
assertion. -/
inductive ConnectionFault
  | socket
  | crypto
  | assertion
  deriving DecidableEq

/-- The crypto library.  A call without a result throws. -/
structure CryptoLibrary (PublicKey PrivateKey : Type) where
  loadFromString : List UInt8 → Option PublicKey
  rsaEncrypt : List UInt8 → List UInt8 → PublicKey → Option (List UInt8)
  rsaDecrypt : List UInt8 → PrivateKey → Option (List UInt8)
  encryptor : List UInt8 → AesBlockEncryptor
  decryptor : List UInt8 → AesBlockDecryptor

/-- What the generator of random numbers gives: an AES key of 256 bits, and
the seed of an encryption. -/
structure Random where
  aesKey : List UInt8
  seed : List UInt8
  length_aesKey : aesKey.length = 32

/-- What `generate_rsa_key_pair` gives, the public key as the string that it
is saved to. -/
structure RsaKeyPair (PrivateKey : Type) where
  publicKey : List UInt8
  privateKey : PrivateKey

/-- `AesKey::reset` to a value, with 256 bits. -/
def resetAesKey (aesKey value : List UInt8) : List UInt8 :=
  value.take 32 ++ aesKey.drop value.length

structure PackageManager where
  packageList : Table Int PackageEntry
  nextId : Int

structure SecureConnection (PrivateKey : Type) where
  state : SecureState
  privateKey : Option PrivateKey
  aesKey : List UInt8
  pendingList : List Int

/-- `NetworkConnectionImpl` without its buffer, with the calls of
`send_raw_package` so far. -/
structure NetworkConnectionImpl (PrivateKey : Type) where
  openType : ConnectionOpenType
  sendList : List Int
  isOpening : Bool
  isClosing : Bool
  destroyed : Bool
  secureConn : Option (SecureConnection PrivateKey)
  pendingList : List Int
  raw : List (Int × PackageEntry)

/-- A connection with the managers that it uses; the in queue is the list of
all packages that were pushed. -/
structure ConnectionState (PrivateKey : Type) where
  packages : PackageManager
  inQueue : List Int
  connection : NetworkConnectionImpl PrivateKey

namespace PackageManager

def init : PackageManager where
  packageList := ∅
  nextId := 1

def findPackage (manager : PackageManager) (packageId : Int) :
    Option PackageEntry :=
  manager.packageList[packageId]?

/-- `register_package`, with what is written into the package after it. -/
def registerPackage (manager : PackageManager) (package : PackageEntry) :
    PackageManager where
  packageList := manager.packageList.insert manager.nextId package
  nextId := manager.nextId + 1

def removePackage (manager : PackageManager) (packageId : Int) :
    PackageManager :=
  { manager with packageList := manager.packageList.erase packageId }

/-- A package is encrypted where it lies. -/
def encrypt (encryptor : AesBlockEncryptor) (packageId : Int)
    (manager : PackageManager) : PackageManager :=
  match manager.findPackage packageId with
  | none => manager
  | some package =>
      { manager with
        packageList := manager.packageList.insert packageId
          (Foundation.SecureConnection.sendPackage encryptor package) }

end PackageManager

/-- A package of the framework with a content, which nothing encrypts. -/
def controlPackage (command : Int) (content : List UInt8) : PackageEntry :=
  let contentLen := intOfSize content.length
  { header := ⟨packageVersion, command, contentLen, 0, 0⟩
    contentBuffer := content ++
      List.replicate (contentBufferLength contentLen - content.length) 0
    lengthCalculator := none }

namespace ConnectionState

variable {PublicKey PrivateKey : Type}

/-- An operation on a connection, which may throw. -/
abbrev Operation (PrivateKey α : Type) : Type :=
  Action ConnectionFault (ConnectionState PrivateKey) α

/-! ## Parts of the state -/

def findPackage (state : ConnectionState PrivateKey) (packageId : Int) :
    Option PackageEntry :=
  state.packages.findPackage packageId

def register (state : ConnectionState PrivateKey) (package : PackageEntry) :
    ConnectionState PrivateKey :=
  { state with packages := state.packages.registerPackage package }

def removePackage (state : ConnectionState PrivateKey) (packageId : Int) :
    ConnectionState PrivateKey :=
  { state with packages := state.packages.removePackage packageId }

/-- A received package is registered and pushed to the in queue. -/
def pushIn (state : ConnectionState PrivateKey) (package : InPackage) :
    ConnectionState PrivateKey :=
  { state with
    packages := state.packages.registerPackage
      { header := package.header
        contentBuffer := package.contentBuffer
        lengthCalculator := none }
    inQueue := state.inQueue ++ [state.packages.nextId] }

def setSecureConn (state : ConnectionState PrivateKey)
    (secureConn : SecureConnection PrivateKey) :
    ConnectionState PrivateKey :=
  { state with
    connection := { state.connection with secureConn := some secureConn } }

/-- The destructor.  The packages of the send list are removed, and the lists
of waiting packages are deleted. -/
def destroy (state : ConnectionState PrivateKey) :
    ConnectionState PrivateKey :=
  { state with
    packages := state.connection.sendList.foldl
      PackageManager.removePackage state.packages
    connection := { state.connection with
      sendList := []
      destroyed := true
      secureConn := state.connection.secureConn.map fun secureConn =>
        { secureConn with pendingList := [] }
      pendingList := [] } }

/-- A connection with packages in its send list is destroyed later. -/
def close (state : ConnectionState PrivateKey) : ConnectionState PrivateKey :=
  if state.connection.sendList = [] then state.destroy
  else
    { state with connection := { state.connection with isClosing := true } }

/-! ## Sending -/

/-- A call of `send_raw_package` is recorded with the package. -/
def record (state : ConnectionState PrivateKey) (packageId : Int) :
    ConnectionState PrivateKey :=
  match state.findPackage packageId with
  | none => state
  | some package =>
      { state with connection := { state.connection with
        raw := state.connection.raw ++ [(packageId, package)] } }

def pushSendList (state : ConnectionState PrivateKey) (packageId : Int) :
    ConnectionState PrivateKey :=
  { state with connection := { state.connection with
    sendList := state.connection.sendList ++ [packageId] } }

section Sending

variable (crypto : CryptoLibrary PublicKey PrivateKey)
  (socket : Int → SendResult)

def sendRawPackage (packageId : Int) : Operation PrivateKey Unit :=
  fun state =>
    let recorded := state.record packageId
    if state.connection.sendList ≠ [] then
      (.ok (), recorded.pushSendList packageId)
    else
      match socket packageId with
      | .whole => (.ok (), recorded.removePackage packageId)
      | .part => (.ok (), recorded.pushSendList packageId)
      | .thrown => (.error .socket, recorded)

/-- `SecureConnection::send_package`. -/
def sendSecurePackage (packageId : Int) : Operation PrivateKey Unit :=
  fun state =>
    match state.connection.secureConn with
    | none => (.ok (), state)
    | some secureConn =>
        match secureConn.state with
        | .starting =>
            (.ok (), state.setSecureConn
              { secureConn with
                pendingList := secureConn.pendingList ++ [packageId] })
        | .started =>
            sendRawPackage socket packageId
              { state with
                packages := state.packages.encrypt
                  (crypto.encryptor secureConn.aesKey) packageId }

def sendPackage (packageId : Int) : Operation PrivateKey Unit :=
  fun state =>
    if state.connection.isClosing = true then
      (.ok (), state.removePackage packageId)
    else
      match state.connection.secureConn with
      | some _ => sendSecurePackage crypto socket packageId state
      | none =>
          if state.connection.isOpening = true then
            (.ok (),
              { state with connection := { state.connection with
                pendingList := state.connection.pendingList ++ [packageId] } })
          else sendRawPackage socket packageId state

/-- The loop of `send_all_pending_package`: a package leaves the list and is
sent if it is still there.  The flags that are set before the loop keep the
sending from the list. -/
def flush (pop : List Int → ConnectionState PrivateKey →
      ConnectionState PrivateKey)
    (send : Int → Operation PrivateKey Unit) :
    List Int → Operation PrivateKey Unit
  | [] => pure ()
  | packageId :: rest => fun state =>
      let popped := pop rest state
      match popped.findPackage packageId with
      | none => flush pop send rest popped
      | some _ => (do send packageId; flush pop send rest) popped

def setPendingList (pendingList : List Int)
    (state : ConnectionState PrivateKey) : ConnectionState PrivateKey :=
  { state with
    connection := { state.connection with pendingList := pendingList } }

def setSecurePendingList (pendingList : List Int)
    (state : ConnectionState PrivateKey) : ConnectionState PrivateKey :=
  { state with connection := { state.connection with
    secureConn := state.connection.secureConn.map fun secureConn =>
      { secureConn with pendingList := pendingList } } }

def sendAllPendingPackage : Operation PrivateKey Unit := fun state =>
  flush setPendingList (sendPackage crypto socket)
    state.connection.pendingList state

/-- `SecureConnection::send_all_pending_package`. -/
def sendAllSecurePendingPackage : Operation PrivateKey Unit := fun state =>
  match state.connection.secureConn with
  | none => (.ok (), state)
  | some secureConn =>
      flush setSecurePendingList (sendSecurePackage crypto socket)
        secureConn.pendingList state

/-- Register a package of the framework and send it as it is. -/
def sendControlPackage (command : Int) (content : List UInt8) :
    Operation PrivateKey Unit := fun state =>
  sendRawPackage socket state.packages.nextId
    (state.register (controlPackage command content))

/-! ## Receiving -/

/-- `PackageBuffer::content` of a complete package. -/
def content (buffer : PackageBuffer) : List UInt8 :=
  (buffer.data.drop headerLen).take (sizeOfInt buffer.header.contentLength)

/-- The end of the crypto start: what waited is sent. -/
def start (secureConn : SecureConnection PrivateKey) :
    Operation PrivateKey Unit := fun state =>
  sendAllSecurePendingPackage crypto socket
    (state.setSecureConn { secureConn with state := .started })

/-- `RSP_START_CRYPTO` on the passive side of a starting connection. -/
def onRspStartCrypto (secureConn : SecureConnection PrivateKey)
    (content : List UInt8) : Operation PrivateKey Unit :=
  match secureConn.privateKey with
  | none => throw .assertion
  | some privateKey =>
      match crypto.rsaDecrypt content privateKey with
      | none => throw .crypto
      | some plain =>
          start crypto socket
            { secureConn with
              aesKey := resetAesKey secureConn.aesKey plain
              privateKey := none }

/-- `REQ_START_CRYPTO` on the active side of a starting connection. -/
def onReqStartCrypto (random : Random)
    (secureConn : SecureConnection PrivateKey) (content : List UInt8) :
    Operation PrivateKey Unit :=
  match crypto.loadFromString content with
  | none => throw .crypto
  | some publicKey => do
      let keyed := { secureConn with aesKey := random.aesKey }
      Action.modify fun state => state.setSecureConn keyed
      match crypto.rsaEncrypt random.aesKey random.seed publicKey with
      | none => throw .crypto
      | some cipher =>
          sendControlPackage socket rspStartCrypto cipher
          start crypto socket keyed

/-- `SecureConnection::on_receive_complete_package`.  The decryption into a
package of the same length does not fail. -/
def onReceiveSecurePackage (random : Random)
    (secureConn : SecureConnection PrivateKey) (buffer : PackageBuffer) :
    Operation PrivateKey Unit := fun state =>
  let command := buffer.header.command
  match secureConn.state with
  | .starting =>
      if state.connection.openType = .passiveOpen ∧
          command = rspStartCrypto then
        onRspStartCrypto crypto socket secureConn (content buffer) state
      else if state.connection.openType = .activeOpen ∧
          command = reqStartCrypto then
        onReqStartCrypto crypto socket random secureConn (content buffer)
          state
      else (.ok (), state)
  | .started =>
      match (Connection.init buffer).decryptPackage
          (crypto.decryptor secureConn.aesKey) with
      | .ok package => (.ok (), state.pushIn package)
      | .error _ => (.error .crypto, state)

/-- `NTF_SECURITY_SETTING`; the setting is one byte. -/
def onNtfSecuritySetting (buffer : PackageBuffer) :
    Operation PrivateKey Unit := fun state =>
  if state.connection.openType = .passiveOpen then (.ok (), state.close)
  else if state.connection.isOpening = false then (.ok (), state.close)
  else if sizeOfInt buffer.header.contentLength < 1 then
    (.ok (), state.close)
  else
    let opened := { state with
      connection := { state.connection with isOpening := false } }
    if buffer.data[headerLen]? = some SecuritySetting.openSecurity.toByte then
      sendAllPendingPackage crypto socket
        (opened.setSecureConn
          { state := .starting, privateKey := none
            aesKey := List.replicate 32 0, pendingList := [] })
    else sendAllPendingPackage crypto socket opened

def onReceiveCompletePackage (random : Random) (buffer : PackageBuffer) :
    Operation PrivateKey Unit := fun state =>
  if buffer.header.command = ntfSecuritySetting then
    onNtfSecuritySetting crypto socket buffer state
  else if state.connection.isOpening = true then (.ok (), state)
  else
    match state.connection.secureConn with
    | none => (.ok (), state.pushIn (Connection.init buffer).plainPackage)
    | some secureConn =>
        onReceiveSecurePackage crypto socket random secureConn buffer state

/-- `process_check_package_version` of a package with another version: the
peer is told, unless this is what it tells. -/
def processCheckPackageVersion (command : Int) : Operation PrivateKey Unit := do
  if command ≠ ntfInvalidVersion then
    sendControlPackage socket ntfInvalidVersion []
  Action.modify close

/-! ## The socket -/

/-- The first loop of `on_writable`. -/
def dropRemoved (packages : PackageManager) : List Int → List Int :=
  List.dropWhile fun packageId => (packages.findPackage packageId).isNone

/-- `on_writable`, with what `sendBytes` does to the rest of the first
package that waits. -/
def onWritable (result : SendResult) : Operation PrivateKey Unit :=
  fun state =>
    let waiting := dropRemoved state.packages state.connection.sendList
    let found := { state with
      connection := { state.connection with sendList := waiting } }
    match waiting with
    | [] => (.ok (), found)
    | packageId :: rest =>
        match result with
        | .thrown => (.error .socket, found)
        | .part => (.ok (), found)
        | .whole =>
            let sent := { found with
              packages := found.packages.removePackage packageId
              connection := { found.connection with sendList := rest } }
            if rest = [] ∧ state.connection.isClosing = true then
              (.ok (), sent.destroy)
            else (.ok (), sent)

end Sending

/-! ## The constructor -/

/-- The connection when the body of the constructor starts. -/
def ofManagers (openType : ConnectionOpenType) (packages : PackageManager)
    (inQueue : List Int) : ConnectionState PrivateKey where
  packages := packages
  inQueue := inQueue
  connection :=
    { openType := openType, sendList := [], isOpening := true
      isClosing := false, destroyed := false, secureConn := none
      pendingList := [], raw := [] }

/-- The first part of the secure connection of a passive connection. -/
def createSecureConn (socket : Int → SendResult)
    (keyPair : RsaKeyPair PrivateKey) : Operation PrivateKey Unit := do
  sendControlPackage socket reqStartCrypto keyPair.publicKey
  Action.modify fun state => state.setSecureConn
    { state := .starting, privateKey := some keyPair.privateKey
      aesKey := List.replicate 32 0, pendingList := [] }

/-- What the constructor of a passive connection sends. -/
def openPassive (socket : Int → SendResult) (setting : SecuritySetting)
    (keyPair : RsaKeyPair PrivateKey) : Operation PrivateKey Unit := do
  sendControlPackage socket ntfSecuritySetting [setting.toByte]
  if setting = .openSecurity then createSecureConn socket keyPair
  Action.modify fun state =>
    { state with connection := { state.connection with isOpening := false } }

/-- How a connection is created.  A passive one has the setting of its
address, if the socket tells the address; an exception ends the body of the
constructor and is caught there. -/
inductive Creation (PrivateKey : Type)
  | active
  | passive (setting : Option SecuritySetting)
      (keyPair : RsaKeyPair PrivateKey) (socket : Int → SendResult)

def Creation.openType : Creation PrivateKey → ConnectionOpenType
  | .active => .activeOpen
  | .passive _ _ _ => .passiveOpen

def create (packages : PackageManager) (inQueue : List Int) :
    Creation PrivateKey → ConnectionState PrivateKey
  | .active => ofManagers .activeOpen packages inQueue
  | .passive none _ _ => ofManagers .passiveOpen packages inQueue
  | .passive (some setting) keyPair socket =>
      (openPassive socket setting keyPair).after
        (ofManagers .passiveOpen packages inQueue)

end ConnectionState

end Details
end Foundation
end Spaceless
