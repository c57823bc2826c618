import Spaceless.Foundation.Receiver
import Spaceless.Foundation.Stages

/-!
# The crypto handshake of two connections

The active end of a connection learns from the passive one that security is
open, gets its public key and answers with an encrypted key.  Each end reads
the stream of the other in its receive loop, which asks for whole blocks as
soon as the end has a secure connection; the packages of the handshake are
sent as they are.  The crypto library and what each call of the socket does
are parameters, and the bytes arrive in any pieces.
-/

namespace Spaceless
namespace Foundation
namespace Details

open Crypto Logic ConnectionState

/-- The ends of a connection. -/
inductive Side
  | active
  | passive
  deriving DecidableEq

def Side.other : Side → Side
  | .active => .passive
  | .passive => .active

/-- A connection with its receive loop, the bytes that the loop took, and the
packages that it completed with them. -/
structure Endpoint (PrivateKey : Type) where
  opening : Opening PrivateKey
  receiver : Receiver
  taken : List UInt8
  read : List (List UInt8)
  fault : Option ReceiveFault

namespace Endpoint

variable {PublicKey PrivateKey : Type}

/-- An end whose constructor has finished. -/
def init (opening : Opening PrivateKey) : Endpoint PrivateKey where
  opening := opening
  receiver := .init
  taken := []
  read := []
  fault := none

def isSecure (endpoint : Endpoint PrivateKey) : Bool :=
  endpoint.opening.state.connection.secureConn.isSome

/-- The bytes of the packages that were passed to `send_raw_package`. -/
def frames (endpoint : Endpoint PrivateKey) : List (List UInt8) :=
  endpoint.opening.sent.map PackageEntry.validBytes

def wire (endpoint : Endpoint PrivateKey) : List UInt8 :=
  endpoint.frames.flatten

def IsOpen (endpoint : Endpoint PrivateKey) : Prop :=
  endpoint.opening.IsOpen ∧ endpoint.fault = none

instance (endpoint : Endpoint PrivateKey) : Decidable endpoint.IsOpen :=
  inferInstanceAs (Decidable (_ ∧ _))

/-- The bytes of a complete package, with what was read behind its header. -/
def package (endpoint : Endpoint PrivateKey) : List UInt8 :=
  let readLen := Receiver.readContentLen endpoint.isSecure
    endpoint.receiver.header.contentLength
  endpoint.receiver.receiveBuffer.data.take (headerLen + readLen.toNat)

def setState (endpoint : Endpoint PrivateKey)
    (state : ConnectionState PrivateKey) : Endpoint PrivateKey :=
  { endpoint with opening := { endpoint.opening with state := state } }

section Steps

variable (crypto : CryptoLibrary PublicKey PrivateKey)

def advance (endpoint : Endpoint PrivateKey) (event : OpeningEvent) :
    Endpoint PrivateKey :=
  { endpoint with opening := endpoint.opening.advance crypto event }

/-- What the connection does after an iteration of its loop. -/
def conclude (random : Random) (socket : Int → SendResult)
    (endpoint : Endpoint PrivateKey) :
    Receiver.Outcome → Endpoint PrivateKey
  | .goesOn => endpoint
  | .complete =>
      { endpoint.advance crypto
          (.receive endpoint.receiver.receiveBuffer random socket) with
        read := endpoint.read ++ [endpoint.package] }
  | .invalidVersion command =>
      endpoint.setState
        ((processCheckPackageVersion socket command).after
          endpoint.opening.state)
  | .noSpace => endpoint.setState endpoint.opening.state.close
  | .closedByPeer => endpoint.setState endpoint.opening.state.destroy
  | .faulty fault => { endpoint with fault := some fault }

/-- An iteration of the loop. -/
def receive (endpoint : Endpoint PrivateKey) (event : Connection.Event)
    (random : Random) (socket : Int → SendResult) :
    Option (Endpoint PrivateKey) :=
  (endpoint.receiver.step endpoint.isSecure event).map
    fun (outcome, receiver) =>
      conclude crypto random socket
        { endpoint with
          receiver := receiver
          taken := endpoint.taken ++ event.bytes }
        outcome

end Steps

end Endpoint

/-- The two ends. -/
abbrev Link (PrivateKey : Type) : Type := Side → Endpoint PrivateKey

/-- What happens to a link, with what the socket and the generator of random
numbers do meanwhile. -/
inductive LinkEvent
  | sendPackage (side : Side) (package : ProtocolPackage)
      (socket : Int → SendResult)
  | receive (side : Side) (event : Connection.Event) (random : Random)
      (socket : Int → SendResult)
  | onWritable (side : Side) (result : SendResult)

def LinkEvent.side : LinkEvent → Side
  | .sendPackage side _ _ | .receive side _ _ _ | .onWritable side _ => side

/-- Nothing disturbs the link: no call of the socket throws, no end is closed,
and the packages of the application are not too long for a secure
connection. -/
def LinkEvent.Undisturbed : LinkEvent → Prop
  | .sendPackage _ package socket =>
      package.header.contentLength ≤ 65504 ∧
        ∀ packageId, socket packageId ≠ .thrown
  | .receive _ event _ socket =>
      event ≠ .called .closedByPeer ∧
        ∀ packageId, socket packageId ≠ .thrown
  | .onWritable _ _ => True

/-- What a handshake depends on. -/
structure Session (PublicKey PrivateKey : Type) where
  crypto : CryptoLibrary PublicKey PrivateKey
  keyPair : RsaKeyPair PrivateKey
  cipherLength : Nat
  socket : Int → SendResult

namespace Session

variable {PublicKey PrivateKey : Type}

/-- A key string is read back, and decryption inverts encryption.  The cipher
texts of RSA have the length of its modulus. -/
structure Lawful (session : Session PublicKey PrivateKey) : Prop where
  exchanges : ∃ publicKey,
    session.crypto.loadFromString session.keyPair.publicKey =
        some publicKey ∧
      ∀ random : Random, ∃ cipher,
        session.crypto.rsaEncrypt random.aesKey random.seed publicKey =
            some cipher ∧
          cipher.length = session.cipherLength ∧
          session.crypto.rsaDecrypt cipher session.keyPair.privateKey =
            some random.aesKey
  inverts : ∀ aesKey block, block.length = aesBlockSize →
    (session.crypto.decryptor aesKey).decrypt
      ((session.crypto.encryptor aesKey).encrypt block) = block
  publicKey : session.keyPair.publicKey.length < 2147483648
  cipher : session.cipherLength < 2147483648
  calm : ∀ packageId, session.socket packageId ≠ .thrown

/-- Where an event is possible, what it does to its end. -/
def react (session : Session PublicKey PrivateKey)
    (link : Link PrivateKey) : LinkEvent → Option (Endpoint PrivateKey)
  | .sendPackage side package socket =>
      some ((link side).advance session.crypto
        (.sendPackage package.toPackageEntry socket))
  | .receive side event random socket =>
      if (link side).taken ++ event.bytes <+: (link side.other).wire then
        (link side).receive session.crypto event random socket
      else none
  | .onWritable side result =>
      some ((link side).advance session.crypto (.onWritable result))

/-- One event at an end that is open.  The bytes that arrive are those that
the other end sends. -/
def step (session : Session PublicKey PrivateKey)
    (link : Link PrivateKey) (event : LinkEvent) :
    Option (Link PrivateKey) :=
  if (link event.side).IsOpen then
    (session.react link event).map (Function.update link event.side)
  else none

def creation (session : Session PublicKey PrivateKey) :
    Side → Creation PrivateKey
  | .active => .active
  | .passive =>
      .passive (some .openSecurity) session.keyPair session.socket

/-- A link from the creation of its ends on. -/
def machine (session : Session PublicKey PrivateKey) :
    Machine (Link PrivateKey) LinkEvent where
  start side :=
    .init (Opening.machine session.crypto (session.creation side)).start
  step := session.step

/-! ## What a handshake is for -/

/-- The end can go on, and reads exactly the packages of the other end. -/
structure Framed (peer endpoint : Endpoint PrivateKey) : Prop where
  isOpen : endpoint.IsOpen
  read : endpoint.read <+: peer.frames
  proceeds : endpoint.receiver.Proceeds endpoint.isSecure

/-- Everything has arrived, and the loops wait for more. -/
def Quiet (link : Link PrivateKey) : Prop :=
  ∀ side, (link side).taken = (link side.other).wire ∧
    (link side).receiver.Waits (link side).isSecure

/-- Both ends have started under one key, and have read all packages. -/
def Established (link : Link PrivateKey) : Prop :=
  (∃ aesKey, ∀ side,
      Ready (some aesKey) (link side).opening.state.connection) ∧
    ∀ side, (link side).read = (link side.other).frames

/-- However the bytes are cut and whatever is sent meanwhile, the ends stay in
step, and the handshake is complete when nothing is left to do. -/
def Completes (session : Session PublicKey PrivateKey) : Prop :=
  ∀ events link, session.machine.Reaches events link →
    (∀ event ∈ events, event.Undisturbed) →
    (∀ side, Framed (link side.other) (link side)) ∧
      (Quiet link → Established link)

/-- A multiple of the block size that fits in a buffer. -/
def Aligned (length : Nat) : Prop :=
  length % aesBlockSize = 0 ∧ length ≤ 65504

end Session

/-! ## Packages as they arrive -/

/-- The header of a package of the framework. -/
def controlHeader (command : Int) (length : Nat) : PackageHeader :=
  ⟨packageVersion, command, length, 0, 0⟩

section Packages

variable {command : Int} {bytes : List UInt8} {buffer : PackageBuffer}

theorem controlHeader_inRange (low : -2147483648 ≤ command)
    (high : command < 2147483648) {length : Nat}
    (small : length < 2147483648) :
    (controlHeader command length).InRange := by
  constructor <;> dsimp only [controlHeader, packageVersion] <;> omega

theorem validBytes_controlPackage (small : bytes.length < 2147483648) :
    (controlPackage command bytes).validBytes =
      (controlHeader command bytes.length).toBytes ++ bytes := by
  have size : intOfSize bytes.length = bytes.length := intOfSize_of_lt small
  have count : sizeOfInt (bytes.length : Int) = bytes.length := by
    rw [sizeOfInt_of_nonneg (Int.natCast_nonneg _) (by omega)]
    exact Int.toNat_natCast _
  unfold PackageEntry.validBytes PackageEntry.validLength PackageEntry.data
    controlPackage
  dsimp only
  rw [size, count, Nat.mod_eq_of_lt (by unfold headerLen; omega),
    ← List.append_assoc]
  apply List.take_left'
  rw [List.length_append, PackageHeader.length_toBytes]

/-- The setting is read by an end that is not secure yet. -/
theorem asks_setting : Receiver.Asks false
    (controlHeader ntfSecuritySetting 1) 1 :=
  ⟨controlHeader_inRange (by decide) (by decide) (by decide), rfl, rfl,
    by decide⟩

/-- Whole blocks are asked for as they are. -/
theorem asks_control (low : -2147483648 ≤ command)
    (high : command < 2147483648) {length : Nat}
    (aligned : Session.Aligned length) :
    Receiver.Asks true (controlHeader command length) length := by
  obtain ⟨blocks, small⟩ := aligned
  refine ⟨controlHeader_inRange low high (by omega), rfl, ?_, ?_⟩
  · change getContentLength length = length
    have count : sizeOfInt (length : Int) = length := by
      rw [sizeOfInt_of_nonneg (Int.natCast_nonneg _) (by omega)]
      exact Int.toNat_natCast _
    unfold getContentLength
    rw [count, aesCipherLength_of_dvd blocks (by omega),
      intOfSize_of_lt (by omega)]
  · unfold maxContentLen
    omega

/-- What lies behind a header in the buffer. -/
theorem held_split {header : PackageHeader} (inRange : header.InRange)
    (held : buffer.data.take (header.toBytes ++ bytes).length =
      header.toBytes ++ bytes) :
    buffer.header = header ∧
      (buffer.data.drop headerLen).take bytes.length = bytes := by
  rw [List.length_append, header.length_toBytes] at held
  have starts := congrArg (List.take headerLen) held
  rw [List.take_take, Nat.min_eq_left (Nat.le_add_right _ _),
    List.take_left' header.length_toBytes] at starts
  refine ⟨PackageHeader.of_take inRange starts, ?_⟩
  rw [List.take_drop, held]
  exact List.drop_left' header.length_toBytes

/-- A package of the framework in the buffer. -/
theorem held_control (low : -2147483648 ≤ command)
    (high : command < 2147483648) (small : bytes.length < 2147483648)
    (held : buffer.data.take (controlPackage command bytes).validBytes.length =
      (controlPackage command bytes).validBytes) :
    buffer.header = controlHeader command bytes.length ∧
      content buffer = bytes := by
  rw [validBytes_controlPackage small] at held
  obtain ⟨header, behind⟩ :=
    held_split (controlHeader_inRange low high small) held
  refine ⟨header, ?_⟩
  have count : sizeOfInt (controlHeader command bytes.length).contentLength =
      bytes.length := by
    change sizeOfInt (bytes.length : Int) = bytes.length
    rw [sizeOfInt_of_nonneg (Int.natCast_nonneg _) (by omega)]
    exact Int.toNat_natCast _
  unfold content
  rw [header, count]
  exact behind

/-- A package of the application that a secure connection takes. -/
def Fits (entry : PackageEntry) : Prop :=
  ∃ package : ProtocolPackage, entry = package.toPackageEntry ∧
    package.header.contentLength ≤ 65504

/-- A package of the application is read under the key. -/
theorem asks_package {package : ProtocolPackage}
    (short : package.header.contentLength ≤ 65504)
    (encryptor : AesBlockEncryptor) :
    Receiver.Asks true package.header (package.body encryptor).length := by
  obtain ⟨length, blocks, -, below⟩ := package.lengths
  refine ⟨package.inRange, package.version, ?_, ?_⟩
  · rw [package.length_body]
    exact length
  · rw [package.length_body]
    unfold aesBlockSize at blocks
    unfold maxContentLen
    omega

/-- A package of the application in the buffer. -/
theorem held_package {encryptor : AesBlockEncryptor}
    {decryptor : AesBlockDecryptor}
    (inverts : ∀ block, block.length = aesBlockSize →
      decryptor.decrypt (encryptor.encrypt block) = block)
    {package : ProtocolPackage}
    (short : package.header.contentLength ≤ 65504)
    (held : buffer.data.take (package.wire encryptor).length =
      package.wire encryptor) :
    buffer.header = package.header ∧
      (Connection.init buffer).decryptPackage decryptor =
        .ok ⟨package.header, package.contentBuffer⟩ := by
  rw [package.wire_eq] at held
  obtain ⟨header, behind⟩ := held_split package.inRange held
  have asks := asks_package short encryptor
  have length : getContentLength
      (Connection.init buffer).header.contentLength =
        (package.body encryptor).length := by
    change getContentLength buffer.header.contentLength = _
    rw [header]
    exact asks.asked
  have blocks := package.lengths.2.1
  have whole : package.contentBuffer.length =
      package.contentBuffer.length / aesBlockSize * aesBlockSize := by
    rw [Nat.div_mul_cancel (Nat.dvd_of_mod_eq_zero blocks)]
  have plain : aesDecrypt decryptor (package.body encryptor)
      (package.body encryptor).length = .ok package.contentBuffer := by
    rw [package.length_body, whole]
    exact aesDecrypt_encryptBlocks inverts whole
  refine ⟨header, ?_⟩
  rw [Connection.decryptPackage_eq length asks.small behind, plain]
  exact congrArg (fun header =>
    Except.ok (⟨header, package.contentBuffer⟩ : InPackage)) header

end Packages

/-! ## The phases of a handshake -/

/-- The event is no package of the peer. -/
def OpeningEvent.Own : OpeningEvent → Prop
  | .receive _ _ _ => False
  | _ => True

namespace Opening

variable {PublicKey PrivateKey : Type}
  {crypto : CryptoLibrary PublicKey PrivateKey}
  {opening : Opening PrivateKey} {event : OpeningEvent}
  {openType : ConnectionOpenType} {privateKey : Option PrivateKey}
  {aesKey : List UInt8} {control pushed : List PackageEntry}

/-- The packages of an end, and those that it passes on, only grow. -/
structure Grows (before after : Opening PrivateKey) : Prop where
  sent : before.sent <+: after.sent
  packages : before.packages <+: after.packages

theorem Unopened.own (unopened : opening.Unopened) (own : event.Own) :
    (opening.advance crypto event).Unopened := by
  cases event with
  | receive => exact own.elim
  | sendPackage package socket => exact unopened.sendPackage package socket
  | onWritable result =>
      obtain ⟨live, untouched⟩ := unopened.live.onWritable result
      exact unopened.untouched live rfl untouched

theorem Starting.own
    (starting : opening.Starting openType privateKey control)
    (own : event.Own) :
    (opening.advance crypto event).Starting openType privateKey control := by
  cases event with
  | receive => exact own.elim
  | sendPackage package socket => exact starting.sendPackage package socket
  | onWritable result =>
      obtain ⟨live, untouched⟩ := starting.live.onWritable result
      exact starting.untouched live rfl untouched

theorem Started.own (started : opening.Started crypto aesKey control pushed)
    (own : event.Own) :
    (opening.advance crypto event).Started crypto aesKey control pushed := by
  cases event with
  | receive => exact own.elim
  | sendPackage package socket => exact started.sendPackage package socket
  | onWritable result =>
      obtain ⟨live, untouched⟩ := started.live.onWritable result
      exact started.untouched live rfl untouched

theorem given_advance (opening : Opening PrivateKey) (event : OpeningEvent) :
    opening.given <+: (opening.advance crypto event).given := by
  cases event with
  | sendPackage => exact List.prefix_append _ _
  | receive | onWritable => exact List.prefix_rfl

/-- An end that does not pass packages on yet. -/
theorem Starting.grows {before after : Opening PrivateKey}
    {otherType : ConnectionOpenType} {otherKey : Option PrivateKey}
    (starting : before.Starting openType privateKey control)
    (still : after.Starting otherType otherKey control)
    (given : before.given <+: after.given) : Grows before after :=
  ⟨by rw [starting.sent, still.sent], given.map Prod.snd⟩

theorem Started.grows {before after : Opening PrivateKey}
    {more : List PackageEntry}
    (started : before.Started crypto aesKey control pushed)
    (still : after.Started crypto aesKey control more)
    (given : before.given <+: after.given) : Grows before after := by
  have packages : before.packages <+: after.packages := given.map Prod.snd
  refine ⟨?_, packages⟩
  rw [started.sent, still.sent]
  exact (List.prefix_append_right_inj _).mpr (packages.map _)

end Opening

namespace Session

variable {PublicKey PrivateKey : Type}
  {session : Session PublicKey PrivateKey}

/-- What the passive end sends at first. -/
def request (session : Session PublicKey PrivateKey) : List PackageEntry :=
  [controlPackage ntfSecuritySetting [SecuritySetting.openSecurity.toByte],
    controlPackage reqStartCrypto session.keyPair.publicKey]

/-- What the active end sends at first. -/
def answer (cipher : List UInt8) : List PackageEntry :=
  [controlPackage rspStartCrypto cipher]

/-- A cipher text from which the passive end gets the key. -/
structure Exchanges (session : Session PublicKey PrivateKey)
    (aesKey cipher : List UInt8) : Prop where
  size : aesKey.length = 32
  length : cipher.length = session.cipherLength
  decrypts : session.crypto.rsaDecrypt cipher session.keyPair.privateKey =
    some aesKey

/-- An end under the key: it pushed packages that the other end was given, in
order. -/
structure Talks (session : Session PublicKey PrivateKey)
    (aesKey : List UInt8) (control peerControl pushed : List PackageEntry)
    (peer endpoint : Endpoint PrivateKey) : Prop where
  started :
    endpoint.opening.Started session.crypto aesKey control pushed
  read : endpoint.read.length = peerControl.length + pushed.length
  received : pushed <+: peer.opening.packages

/-- The passive end until the answer has arrived. -/
structure Awaits (session : Session PublicKey PrivateKey)
    (passive : Endpoint PrivateKey) : Prop where
  starting : passive.opening.Starting .passiveOpen
    (some session.keyPair.privateKey) session.request
  read : passive.read.length = 0

inductive Phase (session : Session PublicKey PrivateKey)
    (active passive : Endpoint PrivateKey) : Prop
  | opening (opens : active.opening.Unopened)
      (read : active.read.length = 0) (awaits : session.Awaits passive)
  | starting (starts : active.opening.Starting .activeOpen none [])
      (read : active.read.length = 1) (awaits : session.Awaits passive)
  | answered {aesKey cipher} (exchanges : session.Exchanges aesKey cipher)
      (talks : session.Talks aesKey (answer cipher) session.request []
        passive active)
      (awaits : session.Awaits passive)
  | established {aesKey cipher toActive toPassive}
      (exchanges : session.Exchanges aesKey cipher)
      (talks : session.Talks aesKey (answer cipher) session.request toActive
        passive active)
      (answers : session.Talks aesKey session.request (answer cipher)
        toPassive active passive)

section Frames

variable {aesKey : List UInt8}
  {control peerControl pushed : List PackageEntry}
  {active passive peer endpoint : Endpoint PrivateKey}
  {frames done later : List (List UInt8)} {frame taken : List UInt8}

theorem next_frame (split : frames = done ++ frame :: later) :
    frames[done.length]? = some frame := by
  rw [split, List.getElem?_append_right (Nat.le_refl _), Nat.sub_self]
  rfl

/-- The package of the peer that is read next was given to it. -/
theorem Talks.next
    (talks : session.Talks aesKey control peerControl pushed peer endpoint)
    (sent : peer.opening.sent = peerControl ++
      peer.opening.packages.map (session.crypto.encipher (some aesKey)))
    (split : peer.frames = endpoint.read ++ frame :: later) :
    ∃ entry, pushed ++ [entry] <+: peer.opening.packages ∧
      frame = (session.crypto.encipher (some aesKey) entry).validBytes := by
  have next := next_frame split
  rw [Endpoint.frames, sent, List.map_append, talks.read,
    List.getElem?_append_right (by simp), List.length_map,
    Nat.add_sub_cancel_left, List.map_map, List.getElem?_map,
    Option.map_eq_some_iff] at next
  obtain ⟨entry, there, isFrame⟩ := next
  obtain ⟨rest, whole⟩ := talks.received
  refine ⟨entry, ?_, isFrame.symm⟩
  rw [← whole, List.getElem?_append_right (Nat.le_refl _), Nat.sub_self]
    at there
  cases rest with
  | nil => cases there
  | cons first rest =>
      cases there
      exact ⟨rest, by rw [← whole, List.append_assoc]; rfl⟩

/-- Under the key every package of the peer is asked for as it is. -/
theorem Talks.expects
    (talks : session.Talks aesKey control peerControl pushed peer endpoint)
    (sent : peer.opening.sent = peerControl ++
      peer.opening.packages.map (session.crypto.encipher (some aesKey)))
    (fits : ∀ entry ∈ peer.opening.packages, Fits entry) :
    Receiver.Expects true peer.frames endpoint.read := by
  intro frame later split
  obtain ⟨entry, among, rfl⟩ := talks.next sent split
  obtain ⟨package, rfl, short⟩ := fits entry
    (among.subset (List.mem_append_right _ (List.mem_singleton_self entry)))
  exact ⟨package.header, package.body (session.crypto.encryptor aesKey),
    package.wire_eq, asks_package short _⟩

end Frames

section Own

variable {active passive peer endpoint : Endpoint PrivateKey}
  {aesKey : List UInt8} {control peerControl pushed : List PackageEntry}
  {event : OpeningEvent}

theorem Awaits.own (awaits : session.Awaits passive) (own : event.Own) :
    session.Awaits (passive.advance session.crypto event) :=
  ⟨awaits.starting.own own, awaits.read⟩

theorem Talks.own
    (talks : session.Talks aesKey control peerControl pushed peer endpoint)
    (own : event.Own) :
    session.Talks aesKey control peerControl pushed peer
      (endpoint.advance session.crypto event) :=
  ⟨talks.started.own own, talks.read, talks.received⟩

theorem Talks.of_peer {after : Endpoint PrivateKey}
    (talks : session.Talks aesKey control peerControl pushed peer endpoint)
    (grows : peer.opening.packages <+: after.opening.packages) :
    session.Talks aesKey control peerControl pushed after endpoint :=
  ⟨talks.started, talks.read, talks.received.trans grows⟩

theorem isSecure_of_present {secureConn}
    (present : endpoint.opening.state.connection.secureConn =
      some secureConn) : endpoint.isSecure = true := by
  rw [Endpoint.isSecure, present]
  rfl

theorem Awaits.isSecure (awaits : session.Awaits passive) :
    passive.isSecure = true :=
  isSecure_of_present awaits.starting.present

theorem Talks.isSecure
    (talks : session.Talks aesKey control peerControl pushed peer endpoint) :
    endpoint.isSecure = true := by
  obtain ⟨secureConn, present, -⟩ := talks.started.ready.keyed
  exact isSecure_of_present present

/-- What an event of its own changes at an end. -/
structure Keeps (before after : Endpoint PrivateKey) : Prop where
  grows : before.opening.Grows after.opening
  isSecure : after.isSecure = before.isSecure

theorem Awaits.keeps (awaits : session.Awaits passive) (own : event.Own) :
    Keeps passive (passive.advance session.crypto event) :=
  ⟨awaits.starting.grows (awaits.own own).starting
      (Opening.given_advance _ event),
    (awaits.own own).isSecure.trans awaits.isSecure.symm⟩

theorem Talks.keeps
    (talks : session.Talks aesKey control peerControl pushed peer endpoint)
    (own : event.Own) :
    Keeps endpoint (endpoint.advance session.crypto event) :=
  ⟨talks.started.grows (talks.own own).started
      (Opening.given_advance _ event),
    (talks.own own).isSecure.trans talks.isSecure.symm⟩

/-- The active end sends packages of its own, or is writable. -/
theorem Phase.ownActive (phase : session.Phase active passive)
    (own : event.Own) :
    session.Phase (active.advance session.crypto event) passive ∧
      Keeps active (active.advance session.crypto event) := by
  have given : active.opening.given <+:
      (active.opening.advance session.crypto event).given :=
    Opening.given_advance _ event
  cases phase with
  | opening opens read awaits =>
      have still : (active.opening.advance session.crypto event).Unopened :=
        opens.own own
      refine ⟨.opening still read awaits, ⟨?_, given.map Prod.snd⟩, ?_⟩
      · rw [Opening.sent, opens.raw]
        exact List.nil_prefix
      · rw [Endpoint.isSecure, Endpoint.isSecure, opens.plain]
        exact congrArg Option.isSome still.plain
  | starting starts read awaits =>
      have still : (active.opening.advance session.crypto event).Starting
          .activeOpen none [] := starts.own own
      exact ⟨.starting still read awaits, starts.grows still given,
        (isSecure_of_present still.present).trans
          (isSecure_of_present starts.present).symm⟩
  | answered exchanges talks awaits =>
      exact ⟨.answered exchanges (talks.own own) awaits, talks.keeps own⟩
  | established exchanges talks answers =>
      exact ⟨.established exchanges (talks.own own)
        (answers.of_peer (given.map Prod.snd)), talks.keeps own⟩

theorem Phase.ownPassive (phase : session.Phase active passive)
    (own : event.Own) :
    session.Phase active (passive.advance session.crypto event) ∧
      Keeps passive (passive.advance session.crypto event) := by
  have packages : passive.opening.packages <+:
      (passive.opening.advance session.crypto event).packages :=
    (Opening.given_advance _ event).map Prod.snd
  cases phase with
  | opening opens read awaits =>
      exact ⟨.opening opens read (awaits.own own), awaits.keeps own⟩
  | starting starts read awaits =>
      exact ⟨.starting starts read (awaits.own own), awaits.keeps own⟩
  | answered exchanges talks awaits =>
      exact ⟨.answered exchanges (talks.of_peer packages) (awaits.own own),
        awaits.keeps own⟩
  | established exchanges talks answers =>
      exact ⟨.established exchanges (talks.of_peer packages)
        (answers.own own), answers.keeps own⟩

end Own

section Complete

variable {active passive peer endpoint : Endpoint PrivateKey}
  {aesKey frame : List UInt8}
  {control peerControl pushed : List PackageEntry} {random : Random}
  {socket : Int → SendResult}

/-- An end has read the next package of its peer. -/
def Reads (peer endpoint : Endpoint PrivateKey) (frame : List UInt8) : Prop :=
  Receiver.Completes peer.frames endpoint.read endpoint.taken
    endpoint.isSecure endpoint.receiver frame

theorem length_read_conclude : (endpoint.conclude session.crypto random
    socket .complete).read.length = endpoint.read.length + 1 :=
  List.length_append

/-- A package under the key is decrypted and pushed. -/
theorem Talks.complete (lawful : session.Lawful)
    (talks : session.Talks aesKey control peerControl pushed peer endpoint)
    (sent : peer.opening.sent = peerControl ++
      peer.opening.packages.map (session.crypto.encipher (some aesKey)))
    (fits : ∀ entry ∈ peer.opening.packages, Fits entry)
    (reads : Reads peer endpoint frame) :
    ∃ entry, session.Talks aesKey control peerControl (pushed ++ [entry])
      peer (endpoint.conclude session.crypto random socket .complete) := by
  obtain ⟨later, split⟩ := reads.next
  obtain ⟨entry, among, rfl⟩ := talks.next sent split
  obtain ⟨package, rfl, short⟩ := fits entry
    (among.subset (List.mem_append_right _ (List.mem_singleton_self entry)))
  have held : endpoint.receiver.receiveBuffer.data.take
      (package.wire (session.crypto.encryptor aesKey)).length =
        package.wire (session.crypto.encryptor aesKey) := reads.held
  obtain ⟨header, decrypts⟩ :=
    held_package (lawful.inverts aesKey) short held
  have other : endpoint.receiver.receiveBuffer.header.command ≠
      ntfSecuritySetting := by
    rw [header]
    exact package.command
  refine ⟨package.toPackageEntry, ⟨talks.started.receive other decrypts, ?_,
    among⟩⟩
  rw [length_read_conclude, talks.read, List.length_append,
    List.length_singleton]
  omega

/-- The active end has read a package. -/
theorem Phase.completeActive (lawful : session.Lawful)
    (phase : session.Phase active passive)
    (fits : ∀ entry ∈ passive.opening.packages, Fits entry)
    (calm : ∀ packageId, socket packageId ≠ .thrown)
    (reads : Reads passive active frame) :
    session.Phase
        (active.conclude session.crypto random socket .complete) passive ∧
      active.opening.Grows
        (active.conclude session.crypto random socket .complete).opening := by
  obtain ⟨later, split⟩ := reads.next
  have next := next_frame split
  have count : (active.conclude session.crypto random socket
      .complete).read.length = active.read.length + 1 := length_read_conclude
  cases phase with
  | opening opens read awaits =>
      rw [read, Endpoint.frames, awaits.starting.sent] at next
      cases next
      obtain ⟨header, setting⟩ := held_control (by decide) (by decide)
        (by decide) reads.held
      have command : active.receiver.receiveBuffer.header.command =
          ntfSecuritySetting := by
        rw [header]
        rfl
      have whole : sizeOfInt
          active.receiver.receiveBuffer.header.contentLength = 1 := by
        rw [header]
        rfl
      have isOpen : active.receiver.receiveBuffer.data[headerLen]? =
          some SecuritySetting.openSecurity.toByte := by
        rw [content, whole] at setting
        have first := congrArg (fun bytes : List UInt8 => bytes[0]?) setting
        simpa using first
      have starts : (active.opening.advance session.crypto
          (.receive active.receiver.receiveBuffer random socket)).Starting
            .activeOpen none [] :=
        opens.receiveSetting command (Nat.le_of_eq whole.symm) isOpen
      refine ⟨.starting starts (count.trans (congrArg Nat.succ read)) awaits,
        ?_, List.prefix_rfl⟩
      rw [Opening.sent, opens.raw]
      exact List.nil_prefix
  | starting starts read awaits =>
      rw [read, Endpoint.frames, awaits.starting.sent] at next
      cases next
      obtain ⟨header, isKey⟩ := held_control (by decide) (by decide)
        lawful.publicKey reads.held
      obtain ⟨publicKey, loads, exchanges⟩ := lawful.exchanges
      obtain ⟨cipher, encrypts, length, decrypts⟩ := exchanges random
      have command : active.receiver.receiveBuffer.header.command =
          reqStartCrypto := by
        rw [header]
        rfl
      rw [← isKey] at loads
      have started := starts.receiveReq command loads encrypts calm
      refine ⟨.answered ⟨random.length_aesKey, length, decrypts⟩
        ⟨started, ?_, List.nil_prefix⟩ awaits, ?_, List.prefix_rfl⟩
      · rw [count, read]
        rfl
      · rw [starts.sent]
        exact List.nil_prefix
  | answered exchanges talks awaits =>
      rw [talks.read, Endpoint.frames, awaits.starting.sent] at next
      cases next
  | established exchanges talks answers =>
      obtain ⟨entry, more⟩ := talks.complete lawful answers.started.sent fits
        reads
      exact ⟨.established exchanges more (answers.of_peer List.prefix_rfl),
        talks.started.grows more.started List.prefix_rfl⟩

/-- The passive end has read a package. -/
theorem Phase.completePassive (lawful : session.Lawful)
    (phase : session.Phase active passive)
    (fits : ∀ entry ∈ active.opening.packages, Fits entry)
    (calm : ∀ packageId, socket packageId ≠ .thrown)
    (reads : Reads active passive frame) :
    session.Phase active
        (passive.conclude session.crypto random socket .complete) ∧
      passive.opening.Grows
        (passive.conclude session.crypto random socket
          .complete).opening := by
  obtain ⟨later, split⟩ := reads.next
  have next := next_frame split
  have count : (passive.conclude session.crypto random socket
      .complete).read.length = passive.read.length + 1 :=
    length_read_conclude
  cases phase with
  | opening opens read awaits =>
      rw [Endpoint.frames, Opening.sent, opens.raw] at next
      cases next
  | starting starts read awaits =>
      rw [Endpoint.frames, starts.sent] at next
      cases next
  | answered exchanges talks awaits =>
      rename_i aesKey cipher
      rw [awaits.read, Endpoint.frames, talks.started.sent] at next
      cases next
      have small : cipher.length < 2147483648 := by
        rw [exchanges.length]
        exact lawful.cipher
      obtain ⟨header, isCipher⟩ := held_control (by decide) (by decide)
        small reads.held
      have command : passive.receiver.receiveBuffer.header.command =
          rspStartCrypto := by
        rw [header]
        rfl
      have decrypts := exchanges.decrypts
      rw [← isCipher] at decrypts
      have key : resetAesKey (List.replicate 32 0) aesKey = aesKey := by
        rw [resetAesKey, List.take_of_length_le
          (Nat.le_of_eq exchanges.size), List.drop_eq_nil_of_le
          (by rw [exchanges.size]; exact Nat.le_refl _), List.append_nil]
      have started : (passive.opening.advance session.crypto
          (.receive passive.receiver.receiveBuffer random socket)).Started
            session.crypto aesKey session.request [] := by
        rw [← key]
        exact awaits.starting.receiveRsp command decrypts calm
      refine ⟨.established exchanges (talks.of_peer List.prefix_rfl)
        ⟨started, ?_, List.nil_prefix⟩, ?_, List.prefix_rfl⟩
      · rw [count, awaits.read]
        rfl
      · rw [awaits.starting.sent]
        exact ⟨_, started.sent.symm⟩
  | established exchanges talks answers =>
      obtain ⟨entry, more⟩ := answers.complete lawful talks.started.sent fits
        reads
      exact ⟨.established exchanges (talks.of_peer List.prefix_rfl) more,
        answers.started.grows more.started List.prefix_rfl⟩

end Complete

section Expects

variable {active passive : Endpoint PrivateKey}

/-- A package of the framework is asked for as it is sent. -/
theorem expects_control {isSecure : Bool} {frames done : List (List UInt8)}
    {command : Int} {bytes : List UInt8}
    (there : frames[done.length]? =
      some (controlPackage command bytes).validBytes)
    (small : bytes.length < 2147483648)
    (asks : Receiver.Asks isSecure (controlHeader command bytes.length)
      bytes.length) :
    Receiver.Expects isSecure frames done := by
  intro frame later split
  have next := next_frame split
  rw [there] at next
  cases next
  exact ⟨_, bytes, validBytes_controlPackage small, asks⟩

/-- The active end asks for the packages of the passive end, if the public
key is not in question or consists of blocks. -/
theorem Phase.expectsActive (lawful : session.Lawful)
    (phase : session.Phase active passive)
    (fits : ∀ entry ∈ passive.opening.packages, Fits entry)
    (aligned : active.read.length = 1 →
      Aligned session.keyPair.publicKey.length) :
    Receiver.Expects active.isSecure passive.frames active.read := by
  cases phase with
  | opening opens read awaits =>
      have there : passive.frames[active.read.length]? =
          some (controlPackage ntfSecuritySetting
            [SecuritySetting.openSecurity.toByte]).validBytes := by
        rw [read, Endpoint.frames, awaits.starting.sent]
        rfl
      rw [Endpoint.isSecure, opens.plain]
      exact expects_control there (by decide) asks_setting
  | starting starts read awaits =>
      have there : passive.frames[active.read.length]? =
          some (controlPackage reqStartCrypto
            session.keyPair.publicKey).validBytes := by
        rw [read, Endpoint.frames, awaits.starting.sent]
        rfl
      rw [isSecure_of_present starts.present]
      exact expects_control there lawful.publicKey
        (asks_control (by decide) (by decide) (aligned read))
  | answered exchanges talks awaits =>
      intro frame later split
      have next := next_frame split
      rw [talks.read, Endpoint.frames, awaits.starting.sent] at next
      cases next
  | established exchanges talks answers =>
      rw [talks.isSecure]
      exact talks.expects answers.started.sent fits

theorem Phase.expectsPassive (lawful : session.Lawful)
    (phase : session.Phase active passive)
    (fits : ∀ entry ∈ active.opening.packages, Fits entry)
    (aligned : active.read.length = 2 → Aligned session.cipherLength) :
    Receiver.Expects passive.isSecure active.frames passive.read := by
  cases phase with
  | opening opens read awaits =>
      intro frame later split
      have next := next_frame split
      rw [Endpoint.frames, Opening.sent, opens.raw] at next
      cases next
  | starting starts read awaits =>
      intro frame later split
      have next := next_frame split
      rw [Endpoint.frames, starts.sent] at next
      cases next
  | answered exchanges talks awaits =>
      rename_i aesKey cipher
      have there : active.frames[passive.read.length]? =
          some (controlPackage rspStartCrypto cipher).validBytes := by
        rw [awaits.read, Endpoint.frames, talks.started.sent]
        rfl
      have small := lawful.cipher
      have blocks := aligned talks.read
      rw [← exchanges.length] at blocks small
      rw [awaits.isSecure]
      exact expects_control there small
        (asks_control (by decide) (by decide) blocks)
  | established exchanges talks answers =>
      rw [answers.isSecure]
      exact answers.expects talks.started.sent fits

/-- No phase ends a connection. -/
theorem Phase.isOpen (phase : session.Phase active passive) :
    active.opening.IsOpen ∧ passive.opening.IsOpen := by
  cases phase with
  | opening opens _ awaits =>
      exact ⟨opens.live.isOpen, awaits.starting.live.isOpen⟩
  | starting starts _ awaits =>
      exact ⟨starts.live.isOpen, awaits.starting.live.isOpen⟩
  | answered _ talks awaits =>
      exact ⟨talks.started.live.isOpen, awaits.starting.live.isOpen⟩
  | established _ talks answers =>
      exact ⟨talks.started.live.isOpen, answers.started.live.isOpen⟩

end Expects

end Session

end Details
end Foundation
end Spaceless
