import Spaceless.Crypto.Aes
import Spaceless.Foundation.PackageBuffer
import Spaceless.Logic.Machine

/-!
# The receiving side of an open connection

A connection reads a header, then the content that the header announces, and
pushes the package to the in queue.  A step is one iteration of the loop of
`receive_for_state`; leaving the loop because no bytes are available changes
nothing.  The sending side is not part of the state, apart from the package
that reports an invalid version.
-/

namespace Spaceless
namespace Foundation

open Crypto Logic

def packageVersion : Int := 2

def ntfInvalidVersion : Int := 1

def ntfSecuritySetting : Int := 2

/-- `sizeof(PackageHeader::Base)`. -/
def headerBaseLen : Nat := 10

/-- What `receiveBytes` returns: `-1`, `0` or a number of bytes. -/
inductive SocketResult
  | unavailable
  | closedByPeer
  | received (bytes : List UInt8)
  deriving DecidableEq

inductive ReceiveState
  | receiveHeader
  | receiveContent
  deriving DecidableEq

/-- A fault in the buffer or in the decryption, or bytes that `receiveBytes`
writes outside the buffer. -/
inductive ReceiveFault
  | buffer (fault : BufferFault)
  | decrypt (fault : DecryptFault)
  | outside
  deriving DecidableEq

/-- A connection that is closing does not receive any more. -/
inductive Status
  | opened
  | closed
  | faulty (fault : ReceiveFault)
  deriving DecidableEq

/-- The space that a call of `receiveBytes` may write, and the length of the
buffer at that time. -/
structure Request where
  offset : Nat
  length : Int
  bufferLength : Nat
  deriving DecidableEq

/-- A package of the in queue. -/
structure InPackage where
  header : PackageHeader
  contentBuffer : List UInt8
  deriving DecidableEq

/-- The length of the content buffer after `register_package`. -/
def contentBufferLength (contentLen : Int) : Nat :=
  aesCipherLength (sizeOfInt contentLen)

def getContentLength (rawLength : Int) : Int :=
  intOfSize (aesCipherLength (sizeOfInt rawLength))

/-- The number of content bytes to read; a secure connection reads whole
blocks. -/
def readContentLen (secureConn : Option AesBlockDecryptor)
    (rawLen : Int) : Int :=
  match secureConn with
  | none => rawLen
  | some _ => getContentLength rawLen

/-- `NetworkConnectionImpl` once it is open, and what it has asked the socket
for. -/
structure Connection where
  receiveBuffer : PackageBuffer
  receiveLen : Nat
  receiveState : ReceiveState
  status : Status
  sendList : List PackageHeader
  inQueue : List InPackage
  requests : List Request
  deriving DecidableEq

namespace Connection

/-- A connection before the first byte of a header. -/
def init (receiveBuffer : PackageBuffer) : Connection where
  receiveBuffer := receiveBuffer
  receiveLen := 0
  receiveState := .receiveHeader
  status := .opened
  sendList := []
  inQueue := []
  requests := []

def header (connection : Connection) : PackageHeader :=
  connection.receiveBuffer.header

def close (connection : Connection) : Connection :=
  { connection with status := .closed }

def fail (connection : Connection) (fault : ReceiveFault) : Connection :=
  { connection with status := .faulty fault }

def push (connection : Connection) (package : InPackage) : Connection :=
  { connection with inQueue := connection.inQueue ++ [package] }

/-- Record the space that `receiveBytes` is asked to write. -/
def ask (connection : Connection) (offset : Nat) (length : Int) :
    Connection :=
  { connection with
    requests := connection.requests ++
      [⟨offset, length, connection.receiveBuffer.length⟩] }

/-- Bytes arrive in the buffer. -/
def accept (connection : Connection) (offset : Nat) (bytes : List UInt8)
    (fits : offset + bytes.length ≤ connection.receiveBuffer.length) :
    Connection :=
  { connection with
    receiveBuffer := connection.receiveBuffer.write offset bytes fits
    receiveLen := connection.receiveLen + bytes.length }

/-- A call of `receiveBytes` and what follows it.  The socket returns at
least one byte and at most as many as asked for. -/
def receiveBytes (connection : Connection) (offset : Nat) (length : Int)
    (proceed : Connection → Connection) :
    SocketResult → Option Connection
  | .unavailable => some (connection.ask offset length)
  | .closedByPeer => some (connection.ask offset length).close
  | .received bytes =>
      if bytes = [] ∨ length < bytes.length then none
      else if fits :
          offset + bytes.length ≤ connection.receiveBuffer.length then
        some (proceed
          ((connection.ask offset length).accept offset bytes fits))
      else some ((connection.ask offset length).fail .outside)

def processCheckPackageVersion (connection : Connection) :
    Bool × Connection :=
  if connection.receiveLen < headerBaseLen then (true, connection)
  else if connection.header.version ≠ packageVersion then
    if connection.header.command ≠ ntfInvalidVersion then
      (false, { connection.close with
        sendList := connection.sendList ++
          [⟨packageVersion, ntfInvalidVersion, 0, 0, 0⟩] })
    else (false, connection.close)
  else (true, connection)

/-- `receive_for_state` after header bytes. -/
def afterHeader (connection : Connection) : Connection :=
  match connection.processCheckPackageVersion with
  | (false, closed) => closed
  | (true, checked) =>
      if checked.receiveLen = headerLen then
        { checked with receiveLen := 0, receiveState := .receiveContent }
      else checked

/-- The package that a plain connection registers, with the content copied
into its buffer. -/
def plainPackage (connection : Connection) : InPackage where
  header := connection.header
  contentBuffer :=
    ((connection.receiveBuffer.data.drop headerLen).take
        (sizeOfInt connection.header.contentLength) ++
      List.replicate
        (contentBufferLength connection.header.contentLength) 0).take
      (contentBufferLength connection.header.contentLength)

/-- `SecureConnection::on_receive_complete_package` once it is started. -/
def decryptPackage (decryptor : AesBlockDecryptor)
    (connection : Connection) : Except DecryptFault InPackage :=
  let contentLen := getContentLength
    (intOfSize (sizeOfInt connection.header.contentLength))
  let cipher := (connection.receiveBuffer.data.drop headerLen).take
    (sizeOfInt contentLen)
  (aesDecrypt decryptor cipher (contentBufferLength contentLen)).map
    fun plain => ⟨connection.header, plain⟩

/-- `on_receive_complete_package` of an open connection: whatever its open
type is, a security setting closes it. -/
def onReceiveCompletePackage (secureConn : Option AesBlockDecryptor)
    (connection : Connection) : Connection :=
  if connection.header.command = ntfSecuritySetting then connection.close
  else
    match secureConn with
    | none => connection.push connection.plainPackage
    | some decryptor =>
        match connection.decryptPackage decryptor with
        | .ok package => connection.push package
        | .error fault => connection.fail (.decrypt fault)

/-- `receive_for_state` after content bytes. -/
def afterContent (secureConn : Option AesBlockDecryptor) (readLen : Int)
    (connection : Connection) : Connection :=
  if (connection.receiveLen : Int) = readLen then
    onReceiveCompletePackage secureConn
      { connection with receiveLen := 0, receiveState := .receiveHeader }
  else connection

/-- An iteration ends without a call of `receiveBytes`, or it calls and goes
on with the result. -/
inductive Iteration
  | ends (next : Connection)
  | calls (connection : Connection) (offset : Nat) (length : Int)
      (proceed : Connection → Connection)

def receiveHeader (connection : Connection) : Iteration :=
  .calls connection connection.receiveLen
    ((headerLen : Int) - connection.receiveLen) afterHeader

def receiveContent (secureConn : Option AesBlockDecryptor)
    (connection : Connection) : Iteration :=
  let readLen := readContentLen secureConn connection.header.contentLength
  if readLen = 0 then .ends (connection.afterContent secureConn readLen)
  else
    match PackageBuffer.expectContentLength (sizeOfInt readLen)
        connection.receiveBuffer with
    | (.error fault, _) => .ends (connection.fail (.buffer fault))
    | (.ok _, buffer) =>
        if sizeSub buffer.length headerLen < sizeOfInt readLen then
          .ends { connection with receiveBuffer := buffer }.close
        else
          .calls { connection with receiveBuffer := buffer }
            (headerLen + connection.receiveLen)
            (readLen - connection.receiveLen)
            (afterContent secureConn readLen)

def iteration (secureConn : Option AesBlockDecryptor)
    (connection : Connection) : Iteration :=
  match connection.receiveState with
  | .receiveHeader => connection.receiveHeader
  | .receiveContent => connection.receiveContent secureConn

/-- An iteration without or with a call of `receiveBytes`. -/
inductive Event
  | passed
  | called (result : SocketResult)
  deriving DecidableEq

/-- One iteration of `receive_for_state`. -/
def step (secureConn : Option AesBlockDecryptor) (connection : Connection)
    (event : Event) : Option Connection :=
  if connection.status = .opened then
    match connection.iteration secureConn, event with
    | .ends next, .passed => some next
    | .calls later offset length proceed, .called result =>
        later.receiveBytes offset length proceed result
    | _, _ => none
  else none

/-- A connection that receives whatever the peer sends. -/
def machine (secureConn : Option AesBlockDecryptor)
    (receiveBuffer : PackageBuffer) : Machine Connection Event where
  start := init receiveBuffer
  step := step secureConn

end Connection

end Foundation
end Spaceless
