import Spaceless.Foundation.Arrival

/-!
# The stages of a secure connection

While no call of the socket throws, a secure connection waits for the setting,
then for the key of its peer, and is then open for good.  Each stage says what
was passed to `send_raw_package` so far and what lies in the in queue.
-/

namespace Spaceless
namespace Foundation
namespace Details

open Crypto Logic ConnectionState

namespace Opening

variable {PublicKey PrivateKey : Type}

/-- The packages that were passed to `send_raw_package`. -/
def sent (opening : Opening PrivateKey) : List PackageEntry :=
  opening.state.connection.raw.map Prod.snd

/-- The packages that were given to `send_package`. -/
def packages (opening : Opening PrivateKey) : List PackageEntry :=
  opening.given.map Prod.snd

/-- The packages of the in queue lie in the table, and nothing sends them. -/
structure Inbox (pushed : List PackageEntry) (given : List (Int × PackageEntry))
    (state : ConnectionState PrivateKey) : Prop where
  found : state.inQueue.map state.findPackage = pushed.map some
  older : ∀ packageId ∈ state.inQueue, packageId < state.packages.nextId
  notRaw : ∀ packageId ∈ state.inQueue,
    packageId ∉ state.connection.raw.map Prod.fst
  notGiven : ∀ packageId ∈ state.inQueue, packageId ∉ given.map Prod.fst

/-- A connection that is open, with what it pushed. -/
structure Live (pushed : List PackageEntry) (opening : Opening PrivateKey) :
    Prop where
  isOpen : opening.IsOpen
  books : Books opening.given opening.state
  inbox : Inbox pushed opening.given opening.state

/-- An active connection that waits for the setting. -/
structure Unopened (opening : Opening PrivateKey) : Prop where
  live : opening.Live []
  holding : opening.Holding
  raw : opening.state.connection.raw = []
  openType : opening.state.connection.openType = .activeOpen
  isOpening : opening.state.connection.isOpening = true
  plain : opening.state.connection.secureConn = none
  waiting : opening.state.connection.pendingList = opening.givenIds

/-- The secure connection of a connection that waits for the key. -/
def startingConn (privateKey : Option PrivateKey) (pendingList : List Int) :
    SecureConnection PrivateKey where
  state := .starting
  privateKey := privateKey
  aesKey := List.replicate 32 0
  pendingList := pendingList

/-- A connection that waits for the key of its peer. -/
structure Starting (openType : ConnectionOpenType)
    (privateKey : Option PrivateKey) (sent : List PackageEntry)
    (opening : Opening PrivateKey) : Prop where
  live : opening.Live []
  holding : opening.Holding
  sent : opening.sent = sent
  openType : opening.state.connection.openType = openType
  opened : opening.state.connection.isOpening = false
  present : opening.state.connection.secureConn =
    some (startingConn privateKey opening.givenIds)

/-- A connection under the key: behind the packages of the framework it sends
all packages that it was given. -/
structure Started (crypto : CryptoLibrary PublicKey PrivateKey)
    (aesKey : List UInt8) (control pushed : List PackageEntry)
    (opening : Opening PrivateKey) : Prop where
  live : opening.Live pushed
  ready : Ready (some aesKey) opening.state.connection
  sent : opening.sent =
    control ++ opening.packages.map (crypto.encipher (some aesKey))

/-! ## The in queue -/

section Inbox

variable {pushed : List PackageEntry} {given : List (Int × PackageEntry)}
  {before after : ConnectionState PrivateKey}

/-- Other packages are passed on. -/
theorem Inbox.passed (inbox : Inbox pushed given before)
    {calls : List (Int × PackageEntry)} (passed : Passed calls before after)
    (others : ∀ packageId ∈ before.inQueue,
      packageId ∉ calls.map Prod.fst) : Inbox pushed given after where
  found := by
    rw [passed.inQueue, ← inbox.found]
    exact List.map_congr_left fun packageId inside =>
      passed.findPackage packageId (others packageId inside)
  older := by
    rw [passed.inQueue, passed.nextId]
    exact inbox.older
  notRaw := by
    rw [passed.inQueue, passed.raw, List.map_append]
    intro packageId inside
    rw [List.mem_append, not_or]
    exact ⟨inbox.notRaw packageId inside, others packageId inside⟩
  notGiven := by
    rw [passed.inQueue]
    exact inbox.notGiven

theorem Inbox.untouched (inbox : Inbox pushed given before)
    (untouched : Untouched before after)
    (inQueue : after.inQueue = before.inQueue) :
    Inbox pushed given after where
  found := by
    rw [inQueue, ← inbox.found]
    exact List.map_congr_left fun packageId inside =>
      untouched.findPackage packageId (inbox.older packageId inside)
        (inbox.notRaw packageId inside)
  older := by
    rw [inQueue]
    intro packageId inside
    exact Int.lt_of_lt_of_le (inbox.older packageId inside) untouched.nextId
  notRaw := by
    rw [inQueue, untouched.raw]
    exact inbox.notRaw
  notGiven := by
    rw [inQueue]
    exact inbox.notGiven

theorem Inbox.nextId_not_mem (inbox : Inbox pushed given before) :
    before.packages.nextId ∉ before.inQueue :=
  fun inside => Int.lt_irrefl _ (inbox.older _ inside)

/-- A package is registered. -/
theorem Inbox.register (inbox : Inbox pushed given before)
    (package : PackageEntry) :
    Inbox pushed given (before.register package) where
  found := by
    rw [← inbox.found]
    exact List.map_congr_left fun packageId inside =>
      findPackage_register_of_lt before package
        (inbox.older packageId inside)
  older packageId inside :=
    Int.lt_trans (inbox.older packageId inside) (nextId_lt_register _ _)
  notRaw := inbox.notRaw
  notGiven := inbox.notGiven

theorem Inbox.give (inbox : Inbox pushed given before)
    (package : PackageEntry) :
    Inbox pushed (given ++ [(before.packages.nextId, package)])
      (before.register package) := by
  refine { inbox.register package with notGiven := ?_ }
  intro packageId inside
  rw [List.map_append, List.mem_append, not_or]
  refine ⟨inbox.notGiven packageId inside, ?_⟩
  rintro isThis
  rw [List.mem_singleton.mp isThis] at inside
  exact inbox.nextId_not_mem inside

/-- A received package is pushed. -/
theorem Inbox.pushIn (inbox : Inbox pushed given before)
    (books : Books given before) (package : InPackage) :
    Inbox (pushed ++ [⟨package.header, package.contentBuffer, none⟩]) given
      (before.pushIn package) where
  found := by
    change (before.inQueue ++ [before.packages.nextId]).map
      (before.register ⟨package.header, package.contentBuffer,
        none⟩).findPackage = _
    rw [List.map_append, List.map_append, ← inbox.found, List.map_singleton,
      findPackage_register_self]
    congr 1
    exact List.map_congr_left fun packageId inside =>
      findPackage_register_of_lt before _ (inbox.older packageId inside)
  older := by
    intro packageId inside
    rcases List.mem_append.mp inside with old | new
    · exact Int.lt_trans (inbox.older packageId old)
        (nextId_lt_register before
          ⟨package.header, package.contentBuffer, none⟩)
    · rw [List.mem_singleton.mp new]
      exact nextId_lt_register before
        ⟨package.header, package.contentBuffer, none⟩
  notRaw := by
    intro packageId inside
    rcases List.mem_append.mp inside with old | new
    · exact inbox.notRaw packageId old
    · rw [List.mem_singleton.mp new]
      exact fun passedOn => Int.lt_irrefl _ (books.raw_lt _ passedOn)
  notGiven := by
    intro packageId inside
    rcases List.mem_append.mp inside with old | new
    · exact inbox.notGiven packageId old
    · rw [List.mem_singleton.mp new]
      exact books.nextId_not_mem

end Inbox

/-! ## A live connection -/

section Live

variable {pushed : List PackageEntry} {before after : Opening PrivateKey}

/-- Packages are passed on that do not lie in the in queue. -/
theorem Live.passed (live : before.Live pushed)
    (given : after.given = before.given)
    {calls : List (Int × PackageEntry)}
    (passed : Passed calls before.state after.state)
    (isClosing : after.state.connection.isClosing =
      before.state.connection.isClosing)
    (others : ∀ packageId ∈ calls.map Prod.fst,
      packageId < before.state.packages.nextId ∧
        packageId ∉ before.state.inQueue) : after.Live pushed where
  isOpen := ⟨isClosing.trans live.isOpen.1,
    passed.destroyed.trans live.isOpen.2⟩
  books := by
    rw [given]
    exact live.books.passed passed fun packageId member =>
      (others packageId member).1
  inbox := by
    rw [given]
    exact live.inbox.passed passed fun packageId inside member =>
      (others packageId member).2 inside

/-- Packages that were given are passed on. -/
theorem Live.passedGiven (live : before.Live pushed)
    (given : after.given = before.given)
    {calls : List (Int × PackageEntry)}
    (passed : Passed calls before.state after.state)
    (isClosing : after.state.connection.isClosing =
      before.state.connection.isClosing)
    (own : ∀ packageId ∈ calls.map Prod.fst,
      packageId ∈ before.givenIds) : after.Live pushed :=
  live.passed given passed isClosing fun packageId member =>
    ⟨live.books.given_lt packageId (own packageId member),
      fun inside => live.inbox.notGiven packageId inside
        (own packageId member)⟩

theorem Live.untouched (live : before.Live pushed)
    (given : after.given = before.given)
    (untouched : Untouched before.state after.state)
    (destroyed : after.state.connection.destroyed =
      before.state.connection.destroyed)
    (inQueue : after.state.inQueue = before.state.inQueue) :
    after.Live pushed where
  isOpen := ⟨untouched.isClosing.trans live.isOpen.1,
    destroyed.trans live.isOpen.2⟩
  books := by
    rw [given]
    exact live.books.untouched untouched
  inbox := by
    rw [given]
    exact live.inbox.untouched untouched inQueue

theorem Live.give (live : before.Live pushed) (package : PackageEntry) :
    (before.give package).Live pushed :=
  ⟨live.isOpen, live.books.give package, live.inbox.give package⟩

/-- `on_writable` on a connection that is open. -/
theorem onWritable_leaves {state : ConnectionState PrivateKey}
    (staysOpen : state.connection.isClosing = false) (result : SendResult) :
    ((onWritable result).after state).connection.destroyed =
        state.connection.destroyed ∧
      ((onWritable result).after state).inQueue = state.inQueue := by
  unfold Action.after onWritable
  cases dropRemoved state.packages state.connection.sendList with
  | nil => exact ⟨rfl, rfl⟩
  | cons packageId rest =>
      cases result with
      | thrown | part => exact ⟨rfl, rfl⟩
      | whole =>
          dsimp only
          rw [if_neg (by simp [staysOpen])]
          exact ⟨rfl, rfl⟩

end Live

/-! ## Events that leave the stage as it is -/

section Events

variable {crypto : CryptoLibrary PublicKey PrivateKey}
  {opening after : Opening PrivateKey} {package : PackageEntry}
  {socket : Int → SendResult} {openType : ConnectionOpenType}
  {privateKey : Option PrivateKey} {aesKey : List UInt8}
  {control pushed : List PackageEntry}

theorem sent_of_passed {before : ConnectionState PrivateKey}
    {calls : List (Int × PackageEntry)}
    (passed : Passed calls before after.state) :
    after.sent = before.connection.raw.map Prod.snd ++
      calls.map Prod.snd := by
  rw [Opening.sent, passed.raw, List.map_append]

/-- A package waits for the opening. -/
theorem Unopened.sendPackage (unopened : opening.Unopened)
    (package : PackageEntry) (socket : Int → SendResult) :
    (opening.advance crypto (.sendPackage package socket)).Unopened := by
  let packageId := opening.state.packages.nextId
  let given := opening.give package
  have live : given.Live [] := unopened.live.give package
  have waits : (ConnectionState.sendPackage crypto socket packageId).after
      given.state = setPendingList
        (opening.state.connection.pendingList ++ [packageId])
        given.state := by
    have noSecure : given.state.connection.secureConn = none :=
      unopened.plain
    have opens : given.state.connection.isOpening = true :=
      unopened.isOpening
    rw [Action.after, sendPackage_of_opening live.isOpen.1 opens noSecure]
    rfl
  have reached : (opening.advance crypto
      (.sendPackage package socket)).state = _ := waits
  have passed := (queue_pendingList none).passed_pop
    (opening.state.connection.pendingList ++ [packageId]) given.state
  rw [← reached] at passed
  refine ⟨@Live.passedGiven _ _ given _ live rfl _ passed ?_ (by simp),
    (unopened.holding.give unopened.live.books package).passed rfl passed
      (by simp), ?_, ?_, ?_, ?_, ?_⟩ <;> rw [reached]
  · rfl
  · exact unopened.raw
  · exact unopened.openType
  · exact unopened.isOpening
  · exact unopened.plain
  · exact (congrArg (· ++ [packageId]) unopened.waiting).trans
      (givenIds_give package).symm

/-- A package waits for the key. -/
theorem Starting.sendPackage
    (starting : opening.Starting openType privateKey control)
    (package : PackageEntry) (socket : Int → SendResult) :
    (opening.advance crypto (.sendPackage package socket)).Starting openType
      privateKey control := by
  let packageId := opening.state.packages.nextId
  let given := opening.give package
  have live : given.Live [] := starting.live.give package
  let longer := startingConn privateKey (opening.givenIds ++ [packageId])
  have waits : (ConnectionState.sendPackage crypto socket packageId).after
      given.state = given.state.setSecureConn longer := by
    have present : given.state.connection.secureConn =
        some (startingConn privateKey opening.givenIds) := starting.present
    rw [Action.after, sendPackage_of_starting live.isOpen.1 present rfl]
    rfl
  have reached : (opening.advance crypto
      (.sendPackage package socket)).state = _ := waits
  have passed := passed_setSecureConn given.state longer
  rw [← reached] at passed
  refine ⟨@Live.passedGiven _ _ given _ live rfl _ passed ?_ (by simp),
    (starting.holding.give starting.live.books package).passed rfl passed
      (by simp), ?_, ?_, ?_, ?_⟩
  · rw [reached]
    rfl
  · rw [sent_of_passed passed, List.map_nil, List.append_nil]
    exact starting.sent
  · rw [reached]
    exact starting.openType
  · rw [reached]
    exact starting.opened
  · rw [reached]
    exact congrArg (fun ids => some (startingConn privateKey ids))
      (givenIds_give package).symm

/-- A package is encrypted and passed on. -/
theorem Started.sendPackage
    (started : opening.Started crypto aesKey control pushed)
    (package : PackageEntry) (socket : Int → SendResult) :
    (opening.advance crypto (.sendPackage package socket)).Started crypto
      aesKey control pushed := by
  let packageId := opening.state.packages.nextId
  let given := opening.give package
  have live : given.Live pushed := started.live.give package
  have ready : Ready (some aesKey) given.state.connection := started.ready
  have sent : RawSent socket
      (packageId, crypto.encipher (some aesKey) package) given.state
      (ConnectionState.sendPackage crypto socket packageId given.state) :=
    sendPackage_sent ready (findPackage_register_self _ _)
  have passed : Passed _ given.state
      (opening.advance crypto (.sendPackage package socket)).state :=
    sent.passed
  refine ⟨@Live.passedGiven _ _ given _ live rfl _ passed sent.isClosing ?_,
    ready.congr sent.secureConn sent.isOpening sent.isClosing, ?_⟩
  · intro other member
    rw [givenIds_give]
    exact List.mem_append_right _ member
  · have before : given.state.connection.raw.map Prod.snd = opening.sent :=
      rfl
    rw [sent_of_passed passed, before, started.sent, List.append_assoc]
    simp [Opening.packages, advance, givenAfter]

/-- What is not touched stays in its stage. -/
theorem Unopened.untouched (unopened : opening.Unopened)
    (live : after.Live []) (given : after.given = opening.given)
    (untouched : Untouched opening.state after.state) : after.Unopened :=
  ⟨live, unopened.holding.untouched unopened.live.books untouched given,
    untouched.raw.trans unopened.raw,
    untouched.openType.trans unopened.openType,
    untouched.isOpening.trans unopened.isOpening,
    untouched.secureConn.trans unopened.plain, by
      rw [givenIds, given]
      exact untouched.pendingList.trans unopened.waiting⟩

theorem Starting.untouched
    (starting : opening.Starting openType privateKey control)
    (live : after.Live []) (given : after.given = opening.given)
    (untouched : Untouched opening.state after.state) :
    after.Starting openType privateKey control :=
  ⟨live, starting.holding.untouched starting.live.books untouched given,
    (congrArg (List.map Prod.snd) untouched.raw).trans starting.sent,
    untouched.openType.trans starting.openType,
    untouched.isOpening.trans starting.opened, by
      rw [givenIds, given]
      exact untouched.secureConn.trans starting.present⟩

theorem Started.untouched
    {more : List PackageEntry}
    (started : opening.Started crypto aesKey control pushed)
    (live : after.Live more) (given : after.given = opening.given)
    (untouched : Untouched opening.state after.state) :
    after.Started crypto aesKey control more :=
  ⟨live, started.ready.congr untouched.secureConn untouched.isOpening
      untouched.isClosing, by
    rw [packages, given]
    exact (congrArg (List.map Prod.snd) untouched.raw).trans started.sent⟩

/-- The socket takes what it was passed before. -/
theorem Live.onWritable (live : opening.Live pushed) (result : SendResult) :
    (opening.advance crypto (.onWritable result)).Live pushed ∧
      Untouched opening.state
        (opening.advance crypto (.onWritable result)).state := by
  have untouched : Untouched opening.state
      (opening.advance crypto (.onWritable result)).state :=
    untouched_onWritable live.isOpen.1 live.books.sendList result
  obtain ⟨destroyed, inQueue⟩ := onWritable_leaves live.isOpen.1 result
  exact ⟨live.untouched rfl untouched destroyed inQueue, untouched⟩

end Events

/-! ## Packages of the peer -/

section Received

variable {crypto : CryptoLibrary PublicKey PrivateKey}
  {opening : Opening PrivateKey} {buffer : PackageBuffer} {random : Random}
  {socket : Int → SendResult} {aesKey : List UInt8}
  {control pushed : List PackageEntry}

/-- The setting that opens security. -/
theorem Unopened.receiveSetting (unopened : opening.Unopened)
    (command : buffer.header.command = ntfSecuritySetting)
    (whole : 1 ≤ sizeOfInt buffer.header.contentLength)
    (setting : buffer.data[headerLen]? =
      some SecuritySetting.openSecurity.toByte) :
    (opening.advance crypto (.receive buffer random socket)).Starting
      .activeOpen none [] := by
  have live := unopened.live
  have moved := @Holding.receiveSecurity _ _ crypto opening buffer random
    socket unopened.holding live.isOpen.1 unopened.waiting command
    unopened.openType unopened.isOpening whole setting
  have reached : (opening.advance crypto
      (.receive buffer random socket)).state = _ := moved
  have passed : Passed [] opening.state
      (opening.advance crypto (.receive buffer random socket)).state := by
    rw [reached]
    exact ⟨(List.append_nil _).symm, fun _ => Or.inl, fun _ _ => rfl, rfl,
      rfl, rfl, rfl⟩
  refine ⟨live.passedGiven rfl passed ?_ (by simp),
    unopened.holding.passed rfl passed (by simp), ?_, ?_, ?_, ?_⟩
  · rw [reached]
  · rw [sent_of_passed passed, unopened.raw]
    rfl
  · rw [reached]
    exact unopened.openType
  · rw [reached]
  · rw [reached]
    rfl

/-- Without an exception all packages that waited for the key are passed
on. -/
theorem Live.start (live : opening.Live pushed) (holding : opening.Holding)
    (opened : opening.state.connection.isOpening = false)
    {secureConn : SecureConnection PrivateKey}
    (waiting : secureConn.pendingList = opening.givenIds)
    (calm : ∀ packageId, socket packageId ≠ .thrown) :
    Passed (enciphered crypto (some secureConn.aesKey) opening.given)
        opening.state
        ((ConnectionState.start crypto socket secureConn).after
          opening.state) ∧
      Ready (some secureConn.aesKey)
        ((ConnectionState.start crypto socket secureConn).after
          opening.state).connection := by
  let started := opening.state.setSecureConn
    { secureConn with state := .started }
  have starts : ConnectionState.start crypto socket secureConn opening.state =
      flush setSecurePendingList (sendSecurePackage crypto socket)
        opening.givenIds started := by
    rw [← waiting]
    rfl
  have ready : Ready (some secureConn.aesKey) started.connection :=
    ⟨opened, live.isOpen.1, _, rfl, rfl, rfl⟩
  obtain ⟨done, rest, flushed, ends⟩ := @flush_flushed _ _ crypto socket _ _
    _ _ (queue_securePendingList secureConn.aesKey)
    (fun _ _ ready => sendSecurePackage_of_ready ready) opening.given started
    ready waiting (fun call member => holding.stored call member)
    live.books.nodup
  have none : rest = [] := by
    rw [ends]
    exact fun both => not_interrupted calm _ both.2
  subst none
  have all : done = opening.given := by
    rw [flushed.split, List.append_nil]
  subst all
  rw [Action.after, starts]
  exact ⟨(passed_setSecureConn opening.state
    { secureConn with state := .started }).trans flushed.passed,
    flushed.ready⟩

/-- The connection is under its key once all packages are passed on. -/
theorem Live.started {after : Opening PrivateKey}
    (live : opening.Live pushed) (given : after.given = opening.given)
    (sent : opening.sent = control)
    (passed : Passed (enciphered crypto (some aesKey) opening.given)
      opening.state after.state)
    (ready : Ready (some aesKey) after.state.connection) :
    after.Started crypto aesKey control pushed := by
  refine ⟨live.passedGiven given passed
    (ready.staysOpen.trans live.isOpen.1.symm) ?_, ready, ?_⟩
  · intro packageId member
    rwa [map_fst_enciphered] at member
  · rw [sent_of_passed passed, packages, given]
    refine congrArg₂ _ sent ?_
    simp [enciphered]

/-- `RSP_START_CRYPTO` with the encrypted key. -/
theorem Starting.receiveRsp {privateKey : PrivateKey} {plain : List UInt8}
    (starting : opening.Starting .passiveOpen (some privateKey) control)
    (command : buffer.header.command = rspStartCrypto)
    (decrypts : crypto.rsaDecrypt (content buffer) privateKey = some plain)
    (calm : ∀ packageId, socket packageId ≠ .thrown) :
    (opening.advance crypto (.receive buffer random socket)).Started crypto
      (resetAesKey (List.replicate 32 0) plain) control [] := by
  let keyed : SecureConnection PrivateKey :=
    { startingConn (some privateKey) opening.givenIds with
      aesKey := resetAesKey (List.replicate 32 0) plain
      privateKey := none }
  have received : onReceiveCompletePackage crypto socket random buffer
      opening.state =
        ConnectionState.start crypto socket keyed opening.state := by
    have other : buffer.header.command ≠ ntfSecuritySetting := by
      rw [command]
      decide
    rw [receive_of_starting other starting.opened starting.present rfl,
      if_pos ⟨starting.openType, command⟩]
    unfold onRspStartCrypto startingConn
    dsimp only
    rw [decrypts]
    rfl
  obtain ⟨passed, ready⟩ := @Live.start _ _ crypto opening socket _
    starting.live starting.holding starting.opened keyed rfl calm
  have reached : (opening.advance crypto
      (.receive buffer random socket)).state =
        (ConnectionState.start crypto socket keyed).after opening.state :=
    congrArg Prod.snd received
  rw [← reached] at passed ready
  exact starting.live.started rfl starting.sent passed ready

/-- Without an exception a package of the framework is passed on. -/
theorem Live.sendControlPackage (live : opening.Live pushed)
    (holding : opening.Holding)
    (calm : ∀ packageId, socket packageId ≠ .thrown) (command : Int)
    (content : List UInt8) {outcome}
    (sends : ConnectionState.sendControlPackage socket command content
      opening.state = outcome) :
    let after : Opening PrivateKey := { opening with state := outcome.2 }
    outcome.1 = .ok () ∧ after.Live pushed ∧ after.Holding ∧
      after.sent = opening.sent ++ [controlPackage command content] ∧
      outcome.2.connection.isOpening =
        opening.state.connection.isOpening ∧
      outcome.2.connection.openType =
        opening.state.connection.openType := by
  subst sends
  let package := controlPackage command content
  let packageId := opening.state.packages.nextId
  let registered : Opening PrivateKey :=
    { opening with state := opening.state.register package }
  have control := @Holding.sendControlPackage _ opening socket holding
    live.books command content
  have rawSent : RawSent socket (packageId, package) registered.state
      (ConnectionState.sendControlPackage socket command content
        opening.state) :=
    sendRawPackage_sent socket (findPackage_register_self _ _)
  have middle : registered.Live pushed :=
    ⟨live.isOpen, live.books.register package, live.inbox.register package⟩
  refine ⟨?_, ?_, control.holding, ?_, control.isOpening,
    control.openType⟩
  · rcases rawSent.ended with ⟨normal, -⟩ | ⟨-, -, thrown⟩
    · exact normal
    · exact absurd thrown (calm _)
  · refine @Live.passed _ _ registered _ middle rfl _ rawSent.passed
      rawSent.isClosing ?_
    intro other isThis
    rw [List.map_singleton, List.mem_singleton] at isThis
    rw [isThis]
    exact ⟨nextId_lt_register _ _, live.inbox.nextId_not_mem⟩
  · exact @sent_of_passed _ ⟨_, opening.given, opening.history⟩ _ _
      rawSent.passed

/-- `REQ_START_CRYPTO` with the public key: the peer gets a new key. -/
theorem Starting.receiveReq {publicKey : PublicKey} {cipher : List UInt8}
    (starting : opening.Starting .activeOpen none control)
    (command : buffer.header.command = reqStartCrypto)
    (loads : crypto.loadFromString (content buffer) = some publicKey)
    (encrypts : crypto.rsaEncrypt random.aesKey random.seed publicKey =
      some cipher)
    (calm : ∀ packageId, socket packageId ≠ .thrown) :
    (opening.advance crypto (.receive buffer random socket)).Started crypto
      random.aesKey (control ++ [controlPackage rspStartCrypto cipher])
      [] := by
  let secureConn : SecureConnection PrivateKey :=
    startingConn none opening.givenIds
  let keyed : SecureConnection PrivateKey :=
    { secureConn with aesKey := random.aesKey }
  let first := opening.rekey secureConn random.aesKey
  have rekeyed : Passed [] opening.state first.state :=
    passed_setSecureConn _ _
  have live : first.Live [] :=
    starting.live.passedGiven rfl rekeyed rfl (by simp)
  have holding : first.Holding :=
    starting.holding.passed rfl rekeyed (by simp)
  have sentFirst : first.sent = control := starting.sent
  have received := @receiveReq_eq _ _ crypto opening buffer random socket _ _
    command starting.openType starting.opened starting.present rfl loads
  rw [encrypts] at received
  dsimp only at received
  cases sends : ConnectionState.sendControlPackage socket rspStartCrypto
    cipher first.state with
  | mk result answered =>
  obtain ⟨normal, answers, holds, sentAnswer, opened, -⟩ :=
    live.sendControlPackage holding calm rspStartCrypto cipher sends
  have none : result = .ok () := normal
  subst none
  let second : Opening PrivateKey := { first with state := answered }
  obtain ⟨passed, ready⟩ := @Live.start _ _ crypto second socket _ answers
    holds (opened.trans starting.opened) keyed rfl calm
  have reached : (opening.advance crypto
      (.receive buffer random socket)).state =
        (ConnectionState.start crypto socket keyed).after answered := by
    change (onReceiveCompletePackage crypto socket random buffer
      opening.state).2 = _
    have sendsFirst : ConnectionState.sendControlPackage socket
        rspStartCrypto cipher (opening.rekey
          (startingConn none opening.givenIds) random.aesKey).state =
        (.ok (), answered) := sends
    rw [received, Action.bind_apply, sendsFirst]
    rfl
  rw [← reached] at passed ready
  refine answers.started rfl ?_ passed ready
  rw [← sentFirst]
  exact sentAnswer

/-- A connection under the key decrypts a package and pushes it. -/
theorem Started.receive {package : InPackage}
    (started : opening.Started crypto aesKey control pushed)
    (other : buffer.header.command ≠ ntfSecuritySetting)
    (decrypts : (Connection.init buffer).decryptPackage
      (crypto.decryptor aesKey) = .ok package) :
    (opening.advance crypto (.receive buffer random socket)).Started crypto
      aesKey control
      (pushed ++ [⟨package.header, package.contentBuffer, none⟩]) := by
  have live := started.live
  obtain ⟨secureConn, present, isStarted, isKey⟩ := started.ready.keyed
  have reached : (opening.advance crypto
      (.receive buffer random socket)).state =
        opening.state.pushIn package := by
    change (onReceiveCompletePackage crypto socket random buffer
      opening.state).2 = _
    unfold onReceiveCompletePackage
    rw [if_neg other, if_neg (by simp [started.ready.opened]), present]
    dsimp only [onReceiveSecurePackage]
    rw [isStarted, isKey]
    dsimp only
    rw [decrypts]
  have untouched : Untouched opening.state
      (opening.advance crypto (.receive buffer random socket)).state := by
    rw [reached]
    exact untouched_pushIn _ _
  refine started.untouched ⟨?_, live.books.untouched untouched, ?_⟩ rfl
    untouched
  · rw [IsOpen, reached]
    exact live.isOpen
  · rw [reached]
    exact live.inbox.pushIn live.books package

end Received

end Opening

end Details
end Foundation
end Spaceless
