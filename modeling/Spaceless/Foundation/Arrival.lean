import Spaceless.Foundation.Order

/-!
# Packages after the opening

A setting or the end of the crypto start works off the packages that waited.
Without an exception of the socket all of them are passed on before any later
one, in every run; an exception leaves some behind for good.
-/

namespace Spaceless
namespace Foundation
namespace Details

open Crypto Logic ConnectionState

namespace Opening

variable {PublicKey PrivateKey : Type}
  (crypto : CryptoLibrary PublicKey PrivateKey)

/-! ## A list is worked off -/

/-- A connection with a key has worked off the packages that waited: some
were passed on, and others stay behind after an exception. -/
structure Resumed (key : Option (List UInt8))
    (done rest : List (Int × PackageEntry)) (before : Opening PrivateKey)
    (after : ConnectionState PrivateKey) : Prop where
  split : before.given = done ++ rest
  handed : { before with state := after }.handed = enciphered crypto key done
  ready : Ready key after.connection
  books : Books before.given after
  openType : after.connection.openType = before.state.connection.openType
  destroyed : after.connection.destroyed = before.state.connection.destroyed

section Resumed

variable {crypto} {creation : Creation PrivateKey}
  {opening : Opening PrivateKey} {key : Option (List UInt8)}
  {done rest : List (Int × PackageEntry)}
  {after : ConnectionState PrivateKey} {history : List OpeningEvent}

theorem Holding.resume (holding : opening.Holding)
    (books : Books opening.given opening.state)
    {waits : ConnectionState PrivateKey → List Int}
    {pop : List Int → ConnectionState PrivateKey →
      ConnectionState PrivateKey}
    {send : Int → Operation PrivateKey Unit} {socket : Int → SendResult}
    (queue : Queue key waits pop)
    (sends : ∀ packageId state, Ready key state.connection →
      send packageId state =
        ConnectionState.sendPackage crypto socket packageId state)
    (ready : Ready key opening.state.connection)
    (waiting : waits opening.state = opening.givenIds) :
    ∃ done rest, Resumed crypto key done rest opening
        ((flush pop send opening.givenIds).after opening.state) ∧
      (rest = [] ↔ ¬(opening.state.connection.sendList = [] ∧
        Interrupted socket opening.givenIds)) := by
  obtain ⟨done, rest, flushed, whole⟩ :=
    flush_flushed queue sends ready waiting holding.stored books.nodup
  refine ⟨done, rest, ⟨flushed.split, ?_, flushed.ready, ?_,
    flushed.passed.openType, flushed.passed.destroyed⟩, whole⟩
  · refine (@handed_eq_of_passed _ opening
      ⟨(ConnectionState.flush pop send opening.givenIds).after opening.state,
        opening.given, opening.history⟩ _ rfl flushed.passed).trans ?_
    rw [holding.handed, List.nil_append]
    apply List.filter_eq_self.mpr
    intro call member
    apply decide_eq_true
    have passedOn : call.1 ∈ (enciphered crypto key done).map Prod.fst :=
      List.mem_map_of_mem member
    rw [map_fst_enciphered] at passedOn
    rw [givenIds, flushed.split, List.map_append]
    exact List.mem_append_left _ passedOn
  · apply books.passed flushed.passed
    intro packageId passedOn
    apply books.given_lt
    rw [map_fst_enciphered] at passedOn
    rw [flushed.split, List.map_append]
    exact List.mem_append_left _ passedOn

/-- After an undisturbed end all packages were passed on. -/
theorem Resumed.ordered (resumed : Resumed crypto key done [] opening after)
    (openType : opening.state.connection.openType = creation.openType)
    (origin : KeyOrigin crypto creation history key) :
    Ordered crypto creation
      { state := after, given := opening.given, history := history } where
  openType := resumed.openType.trans openType
  books := resumed.books
  stage := by
    refine .ready resumed.ready ?_ origin
    have all : opening.given = done := by
      rw [resumed.split, List.append_nil]
    change { opening with state := after }.handed = _
    rw [resumed.handed, all]

/-- A connection without packages that wait is open. -/
theorem opened_of_ready {connection : NetworkConnectionImpl PrivateKey}
    (ready : Ready key connection) : Opened connection := by
  refine ⟨ready.opened, ?_⟩
  intro secureConn present
  have keyed := ready.keyed
  cases key with
  | none =>
      rw [present] at keyed
      cases keyed
  | some aesKey =>
      obtain ⟨other, isConn, started, -⟩ := keyed
      rw [present] at isConn
      cases isConn
      exact started

/-- Packages that stay behind were given before those that are passed on
later. -/
theorem Resumed.not_orderly
    (resumed : Resumed crypto key done rest opening after)
    (behind : rest ≠ []) (isOpen : opening.IsOpen) :
    ¬(({ state := after, given := opening.given, history := history } :
        Opening PrivateKey).IsOpen →
      Orderly crypto creation
        { state := after, given := opening.given, history := history }) := by
  intro orderly
  have complete := (orderly ⟨resumed.ready.staysOpen,
    resumed.destroyed.trans isOpen.2⟩).complete
    (opened_of_ready resumed.ready)
  change { opening with state := after }.handed.map Prod.fst =
    opening.given.map Prod.fst at complete
  rw [resumed.handed, map_fst_enciphered, resumed.split, List.map_append]
    at complete
  have none := List.self_eq_append_right.mp complete
  exact behind (List.map_eq_nil_iff.mp none)

end Resumed

/-! ## A package is received -/

section Received

variable {crypto} {creation : Creation PrivateKey}
  {opening : Opening PrivateKey} {buffer : PackageBuffer} {random : Random}
  {socket : Int → SendResult}

theorem close_not_open (state : ConnectionState PrivateKey) :
    ¬(state.close.connection.isClosing = false ∧
      state.close.connection.destroyed = false) := by
  unfold close
  split
  · exact fun isOpen => Bool.noConfusion isOpen.2
  · exact fun isOpen => Bool.noConfusion isOpen.1

/-- A setting without security is received: the list of the opening is worked
off. -/
theorem Holding.receivePlain (holding : opening.Holding)
    (books : Books opening.given opening.state)
    (staysOpen : opening.state.connection.isClosing = false)
    (plain : opening.state.connection.secureConn = none)
    (waiting : opening.state.connection.pendingList = opening.givenIds)
    (command : buffer.header.command = ntfSecuritySetting)
    (active : opening.state.connection.openType = .activeOpen)
    (isOpening : opening.state.connection.isOpening = true)
    (whole : 1 ≤ sizeOfInt buffer.header.contentLength)
    (setting : buffer.data[headerLen]? ≠
      some SecuritySetting.openSecurity.toByte) :
    ∃ done rest, Resumed crypto none done rest opening
        ((onReceiveCompletePackage crypto socket random buffer).after
          opening.state) ∧
      (rest = [] ↔ ¬(opening.state.connection.sendList = [] ∧
        Interrupted socket opening.givenIds)) := by
  let opened := { opening.state with
    connection := { opening.state.connection with isOpening := false } }
  have received : onReceiveCompletePackage crypto socket random buffer
      opening.state = flush setPendingList
        (ConnectionState.sendPackage crypto socket) opening.givenIds
          opened := by
    rw [← waiting]
    unfold onReceiveCompletePackage onNtfSecuritySetting
    rw [if_pos command, if_neg (by simp [active]), if_neg (by simp [isOpening]),
      if_neg (by omega)]
    exact if_neg setting
  have passed : Passed [] opening.state opened :=
    ⟨(List.append_nil _).symm, fun _ => Or.inl, fun _ _ => rfl, rfl, rfl, rfl,
      rfl⟩
  let middle : Opening PrivateKey := ⟨opened, opening.given, opening.history⟩
  have holds : middle.Holding := holding.passed rfl passed (by simp)
  obtain ⟨done, rest, resumed, ends⟩ := @Holding.resume _ _ crypto middle none
    holds (books.passed passed (by simp)) _ _ _ socket
    (queue_pendingList none) (fun _ _ _ => rfl) ⟨rfl, staysOpen, plain⟩
    waiting
  refine ⟨done, rest, ?_, ends⟩
  rw [Action.after, received]
  exact ⟨resumed.split, resumed.handed, resumed.ready, resumed.books,
    resumed.openType, resumed.destroyed⟩

/-- The crypto start ends: its list is worked off. -/
theorem Holding.start (holding : opening.Holding)
    (books : Books opening.given opening.state)
    (staysOpen : opening.state.connection.isClosing = false)
    (opened : opening.state.connection.isOpening = false)
    {secureConn : SecureConnection PrivateKey}
    (waiting : secureConn.pendingList = opening.givenIds) :
    ∃ done rest, Resumed crypto (some secureConn.aesKey) done rest opening
        ((ConnectionState.start crypto socket secureConn).after
          opening.state) ∧
      (rest = [] ↔ ¬(opening.state.connection.sendList = [] ∧
        Interrupted socket opening.givenIds)) := by
  let started := opening.state.setSecureConn
    { secureConn with state := .started }
  have starts : ConnectionState.start crypto socket secureConn opening.state =
      flush setSecurePendingList (sendSecurePackage crypto socket)
        opening.givenIds started := by
    rw [← waiting]
    rfl
  have passed : Passed [] opening.state started :=
    passed_setSecureConn _ _
  let middle : Opening PrivateKey := ⟨started, opening.given, opening.history⟩
  have holds : middle.Holding := holding.passed rfl passed (by simp)
  have ready : Ready (some secureConn.aesKey) started.connection :=
    ⟨opened, staysOpen, _, rfl, rfl, rfl⟩
  obtain ⟨done, rest, resumed, ends⟩ := @Holding.resume _ _ crypto middle
    (some secureConn.aesKey) holds (books.passed passed (by simp)) _ _ _
    socket (queue_securePendingList _)
    (fun _ _ ready => sendSecurePackage_of_ready ready) ready waiting
  refine ⟨done, rest, ?_, ends⟩
  rw [Action.after, starts]
  exact ⟨resumed.split, resumed.handed, resumed.ready, resumed.books,
    resumed.openType, resumed.destroyed⟩

/-- What sending a package of the framework leaves as it is while packages of
the application wait. -/
structure ControlSent (socket : Int → SendResult)
    (before : Opening PrivateKey)
    (outcome : Except ConnectionFault Unit × ConnectionState PrivateKey) :
    Prop where
  holding : { before with state := outcome.2 }.Holding
  books : Books before.given outcome.2
  secureConn :
    outcome.2.connection.secureConn = before.state.connection.secureConn
  pendingList :
    outcome.2.connection.pendingList = before.state.connection.pendingList
  isOpening :
    outcome.2.connection.isOpening = before.state.connection.isOpening
  isClosing :
    outcome.2.connection.isClosing = before.state.connection.isClosing
  openType : outcome.2.connection.openType = before.state.connection.openType
  destroyed :
    outcome.2.connection.destroyed = before.state.connection.destroyed
  ended : outcome.1 = .ok () ∧
      (outcome.2.connection.sendList = [] ↔
        before.state.connection.sendList = [] ∧
          socket before.state.packages.nextId = .whole) ∨
    outcome.1 = .error .socket ∧
      socket before.state.packages.nextId = .thrown

theorem Holding.sendControlPackage (holding : opening.Holding)
    (books : Books opening.given opening.state) (command : Int)
    (content : List UInt8) :
    ControlSent socket opening
      (ConnectionState.sendControlPackage socket command content
        opening.state) := by
  let package := controlPackage command content
  let registered := opening.state.register package
  have sent : RawSent socket (opening.state.packages.nextId, package)
      registered (ConnectionState.sendControlPackage socket command content
        opening.state) :=
    sendRawPackage_sent socket (findPackage_register_self _ _)
  have untouched : Untouched opening.state registered :=
    ⟨rfl, rfl, rfl, rfl, rfl, rfl, fun _ => id,
      Int.le_of_lt (nextId_lt_register _ _),
      fun _ older _ => findPackage_register_of_lt _ _ older⟩
  let middle : Opening PrivateKey :=
    ⟨registered, opening.given, opening.history⟩
  have holds : middle.Holding := holding.untouched books untouched rfl
  refine ⟨holds.passed rfl sent.passed ?_, ?_, sent.secureConn,
    sent.pendingList, sent.isOpening, sent.isClosing, sent.passed.openType,
    sent.passed.destroyed, ?_⟩
  · intro packageId isThis
    simp only [List.map_cons, List.map_nil, List.mem_singleton] at isThis
    rw [isThis]
    exact books.nextId_not_mem
  · apply (books.register package).passed sent.passed
    intro packageId isThis
    simp only [List.map_cons, List.map_nil, List.mem_singleton] at isThis
    rw [isThis]
    exact nextId_lt_register _ _
  · rcases sent.ended with ⟨normal, empty, -⟩ | ⟨thrown, -, throws⟩
    · exact Or.inl ⟨normal, empty⟩
    · exact Or.inr ⟨thrown, throws⟩

/-- A setting that opens security is received: what waits for the opening
waits for the crypto start from now on. -/
theorem Holding.receiveSecurity (holding : opening.Holding)
    (staysOpen : opening.state.connection.isClosing = false)
    (waiting : opening.state.connection.pendingList = opening.givenIds)
    (command : buffer.header.command = ntfSecuritySetting)
    (active : opening.state.connection.openType = .activeOpen)
    (isOpening : opening.state.connection.isOpening = true)
    (whole : 1 ≤ sizeOfInt buffer.header.contentLength)
    (setting : buffer.data[headerLen]? =
      some SecuritySetting.openSecurity.toByte) :
    (onReceiveCompletePackage crypto socket random buffer).after
        opening.state =
      { opening.state with connection := { opening.state.connection with
        isOpening := false
        pendingList := []
        secureConn := some
          { state := .starting, privateKey := none
            aesKey := List.replicate 32 0
            pendingList := opening.givenIds } } } := by
  let secureConn : SecureConnection PrivateKey :=
    { state := .starting, privateKey := none
      aesKey := List.replicate 32 0, pendingList := [] }
  let opened := { opening.state with
    connection := { opening.state.connection with isOpening := false } }
  have received : onReceiveCompletePackage crypto socket random buffer
      opening.state = flush setPendingList
        (ConnectionState.sendPackage crypto socket) opening.givenIds
          (opened.setSecureConn secureConn) := by
    rw [← waiting]
    unfold onReceiveCompletePackage onNtfSecuritySetting
    rw [if_pos command, if_neg (by simp [active]), if_neg (by simp [isOpening]),
      if_neg (by omega)]
    exact if_pos setting
  have moved := @flush_starting _ _ crypto socket
    (opened.setSecureConn secureConn) secureConn staysOpen rfl rfl _ waiting
    (by
      intro packageId isGiven
      obtain ⟨call, member, rfl⟩ := List.mem_map.mp isGiven
      exact Option.isSome_of_eq_some (holding.stored call member))
  rw [Action.after, received, moved]
  rfl

theorem Ordered.receiveSetting (ordered : Ordered crypto creation opening)
    (isOpen : opening.IsOpen)
    (command : buffer.header.command = ntfSecuritySetting)
    (calm : opening.Uninterrupted crypto (.receive buffer random socket))
    (stays :
      (opening.advance crypto (.receive buffer random socket)).IsOpen) :
    Ordered crypto creation
      (opening.advance crypto (.receive buffer random socket)) := by
  let event := OpeningEvent.receive buffer random socket
  obtain ⟨active, isOpening, whole⟩ :
      opening.state.connection.openType = .activeOpen ∧
        opening.state.connection.isOpening = true ∧
          1 ≤ sizeOfInt buffer.header.contentLength := by
    by_contra refused
    apply close_not_open opening.state
    have closes : onReceiveCompletePackage crypto socket random buffer
        opening.state = (.ok (), opening.state.close) :=
      (if_pos command).trans (onNtfSecuritySetting_of_refused refused)
    have closed := stays
    rw [IsOpen, advance, react, Action.after, closes] at closed
    exact closed
  have isLast : event ∈ opening.history ++ [event] := by simp
  have isSetting : event.IsSecuritySetting := command
  cases ordered.stage with
  | opening holding _ plain waiting quiet =>
      by_cases setting : buffer.data[headerLen]? =
          some SecuritySetting.openSecurity.toByte
      · have moved := @Holding.receiveSecurity _ _ crypto opening buffer
          random socket holding isOpen.1 waiting command active isOpening
          whole setting
        have passed : Passed [] opening.state
            ((onReceiveCompletePackage crypto socket random buffer).after
              opening.state) := by
          rw [moved]
          exact ⟨(List.append_nil _).symm, fun _ => Or.inl, fun _ _ => rfl,
            rfl, rfl, rfl, rfl⟩
        refine ⟨passed.openType.trans ordered.openType,
          ordered.books.passed passed (by simp), ?_⟩
        have reached : (opening.advance crypto event).state = _ := moved
        have opens : event.OpensSecurity := ⟨command, setting⟩
        refine .starting (holding.passed rfl passed (by simp))
          (by rw [reached]) (by rw [reached]) rfl rfl ⟨?_, ?_⟩
        · exact Or.inr ⟨event, isLast, opens⟩
        · rintro setting keyPair socket rfl
          rw [ordered.openType] at active
          cases active
      · obtain ⟨done, rest, resumed, ends⟩ := @Holding.receivePlain _ _
          crypto opening buffer random socket holding ordered.books isOpen.1
          plain waiting command active isOpening whole setting
        have none : rest = [] := by
          rw [ends]
          rintro ⟨idle, interrupted⟩
          rw [← waiting] at interrupted
          exact calm _ (.setting command active isOpening whole setting idle)
            interrupted
        subst none
        refine resumed.ordered ordered.openType ⟨?_, ?_, ?_⟩
        · exact fun _ => ⟨event, isLast, isSetting⟩
        · rintro - (⟨keyPair, socket, rfl⟩ | ⟨other, member, opens⟩)
          · rw [ordered.openType] at active
            cases active
          · rcases List.mem_append.mp member with earlier | last
            · exact quiet other earlier
                (OpeningEvent.isSecuritySetting_of_opensSecurity opens)
            · rw [List.mem_singleton] at last
              subst last
              exact setting opens.2
        · intro aesKey isKey
          cases isKey
  | starting _ opened => rw [opened] at isOpening; cases isOpening
  | ready ready => rw [ready.opened] at isOpening; cases isOpening

/-- `RSP_START_CRYPTO` ends the crypto start of a passive connection. -/
theorem Holding.receiveRsp (holding : opening.Holding)
    (books : Books opening.given opening.state)
    (staysOpen : opening.state.connection.isClosing = false)
    {secureConn : SecureConnection PrivateKey} {privateKey : PrivateKey}
    {plain : List UInt8}
    (waiting : secureConn.pendingList = opening.givenIds)
    (command : buffer.header.command = rspStartCrypto)
    (passive : opening.state.connection.openType = .passiveOpen)
    (opened : opening.state.connection.isOpening = false)
    (present : opening.state.connection.secureConn = some secureConn)
    (starting : secureConn.state = .starting)
    (stored : secureConn.privateKey = some privateKey)
    (decrypts : crypto.rsaDecrypt (content buffer) privateKey =
      some plain) :
    ∃ done rest, Resumed crypto (some (resetAesKey secureConn.aesKey plain))
        done rest opening
        ((onReceiveCompletePackage crypto socket random buffer).after
          opening.state) ∧
      (rest = [] ↔ ¬(opening.state.connection.sendList = [] ∧
        Interrupted socket opening.givenIds)) := by
  let keyed : SecureConnection PrivateKey := { secureConn with
    aesKey := resetAesKey secureConn.aesKey plain
    privateKey := none }
  have waits : keyed.pendingList = opening.givenIds := waiting
  have received : onReceiveCompletePackage crypto socket random buffer
      opening.state =
        ConnectionState.start crypto socket keyed opening.state := by
    have other : buffer.header.command ≠ ntfSecuritySetting := by
      rw [command]
      decide
    rw [receive_of_starting other opened present starting,
      if_pos ⟨passive, command⟩]
    unfold onRspStartCrypto
    rw [stored]
    dsimp only
    rw [decrypts]
  rw [Action.after, received]
  exact holding.start books staysOpen opened waits

/-- A starting connection with its AES key. -/
def rekey (opening : Opening PrivateKey)
    (secureConn : SecureConnection PrivateKey) (aesKey : List UInt8) :
    Opening PrivateKey :=
  { opening with
    state := opening.state.setSecureConn
      { secureConn with aesKey := aesKey } }

/-- `REQ_START_CRYPTO` sets the key of an active connection, which the peer
gets encrypted. -/
theorem receiveReq_eq {secureConn : SecureConnection PrivateKey}
    {publicKey : PublicKey}
    (command : buffer.header.command = reqStartCrypto)
    (active : opening.state.connection.openType = .activeOpen)
    (opened : opening.state.connection.isOpening = false)
    (present : opening.state.connection.secureConn = some secureConn)
    (starting : secureConn.state = .starting)
    (loads : crypto.loadFromString (content buffer) = some publicKey) :
    onReceiveCompletePackage crypto socket random buffer opening.state =
      match crypto.rsaEncrypt random.aesKey random.seed publicKey with
      | none =>
          (.error .crypto, (opening.rekey secureConn random.aesKey).state)
      | some cipher =>
          (ConnectionState.sendControlPackage socket rspStartCrypto cipher
            >>= fun _ => ConnectionState.start crypto socket
              { secureConn with aesKey := random.aesKey })
            (opening.rekey secureConn random.aesKey).state := by
  have other : buffer.header.command ≠ ntfSecuritySetting := by
    rw [command]
    decide
  rw [receive_of_starting other opened present starting,
    if_neg (by simp [active]), if_pos ⟨active, command⟩]
  unfold onReqStartCrypto
  rw [loads]
  dsimp only
  rw [Action.bind_apply, Action.modify_apply]
  cases crypto.rsaEncrypt random.aesKey random.seed publicKey <;> rfl

/-- The end of the crypto start of an active connection, or an exception
before it. -/
theorem Holding.startKeyed (holding : opening.Holding)
    (books : Books opening.given opening.state)
    (staysOpen : opening.state.connection.isClosing = false)
    (opened : opening.state.connection.isOpening = false)
    {secureConn : SecureConnection PrivateKey}
    (waiting : secureConn.pendingList = opening.givenIds)
    (command : Int) (content : List UInt8) :
    (∃ done rest, Resumed crypto (some secureConn.aesKey) done rest opening
        ((ConnectionState.sendControlPackage socket command content >>=
          fun _ => ConnectionState.start crypto socket secureConn).after
            opening.state) ∧
      (rest = [] ↔ ¬(opening.state.connection.sendList = [] ∧
        socket opening.state.packages.nextId = .whole ∧
          Interrupted socket opening.givenIds))) ∨
    socket opening.state.packages.nextId = .thrown ∧
      (ConnectionState.sendControlPackage socket command content >>=
          fun _ => ConnectionState.start crypto socket secureConn).after
        opening.state =
      (ConnectionState.sendControlPackage socket command content).after
        opening.state := by
  have control : ControlSent socket opening
      (ConnectionState.sendControlPackage socket command content
        opening.state) := holding.sendControlPackage books command content
  simp only [Action.after, Action.bind_apply]
  generalize ConnectionState.sendControlPackage socket command content
    opening.state = outcome at control
  obtain ⟨result, later⟩ := outcome
  rcases control.ended with ⟨normal, empty⟩ | ⟨thrown, throws⟩
  · cases normal
    left
    let middle : Opening PrivateKey := ⟨later, opening.given, opening.history⟩
    have holds : middle.Holding := control.holding
    obtain ⟨done, rest, resumed, ends⟩ := @Holding.start _ _ crypto middle
      socket holds control.books (control.isClosing.trans staysOpen)
      (control.isOpening.trans opened) _ waiting
    refine ⟨done, rest, ⟨resumed.split, resumed.handed, resumed.ready,
      resumed.books, resumed.openType.trans control.openType,
      resumed.destroyed.trans control.destroyed⟩, ?_⟩
    rw [ends, ← and_assoc]
    exact not_congr (and_congr_left' empty)
  · cases thrown
    exact Or.inr ⟨throws, rfl⟩

/-- `REQ_START_CRYPTO` ends the crypto start of an active connection, unless
the answer is not sent. -/
theorem Holding.receiveReq (holding : opening.Holding)
    (books : Books opening.given opening.state)
    (staysOpen : opening.state.connection.isClosing = false)
    {secureConn : SecureConnection PrivateKey} {publicKey : PublicKey}
    {cipher : List UInt8}
    (waiting : secureConn.pendingList = opening.givenIds)
    (command : buffer.header.command = reqStartCrypto)
    (active : opening.state.connection.openType = .activeOpen)
    (opened : opening.state.connection.isOpening = false)
    (present : opening.state.connection.secureConn = some secureConn)
    (starting : secureConn.state = .starting)
    (loads : crypto.loadFromString (content buffer) = some publicKey)
    (encrypts : crypto.rsaEncrypt random.aesKey random.seed publicKey =
      some cipher) :
    (∃ done rest, Resumed crypto (some random.aesKey) done rest opening
        ((onReceiveCompletePackage crypto socket random buffer).after
          opening.state) ∧
      (rest = [] ↔ ¬(opening.state.connection.sendList = [] ∧
        socket opening.state.packages.nextId = .whole ∧
          Interrupted socket opening.givenIds))) ∨
    socket opening.state.packages.nextId = .thrown ∧
      ∃ result, ControlSent socket (opening.rekey secureConn random.aesKey)
        (result, (onReceiveCompletePackage crypto socket random buffer).after
          opening.state) := by
  let keyed : SecureConnection PrivateKey :=
    { secureConn with aesKey := random.aesKey }
  have passed : Passed [] opening.state
      (opening.rekey secureConn random.aesKey).state :=
    passed_setSecureConn _ _
  have holds : (opening.rekey secureConn random.aesKey).Holding :=
    holding.passed rfl passed (by simp)
  have received := @receiveReq_eq _ _ crypto opening buffer random socket
    _ _ command active opened present starting loads
  rw [encrypts] at received
  dsimp only at received
  rw [Action.after, received]
  rcases @Holding.startKeyed _ _ crypto _ socket holds
    (books.passed passed (by simp)) staysOpen opened keyed waiting
    rspStartCrypto cipher with ⟨done, rest, resumed, ends⟩ | ⟨throws, thrown⟩
  · exact Or.inl ⟨done, rest, ⟨resumed.split, resumed.handed, resumed.ready,
      resumed.books, resumed.openType, resumed.destroyed⟩, ends⟩
  · right
    have control := @Holding.sendControlPackage _ _ socket holds
      (books.passed passed (by simp)) rspStartCrypto cipher
    rw [Action.after] at thrown
    rw [thrown]
    exact ⟨throws, _, control⟩

/-- A received package that changes nothing. -/
theorem Ordered.receiveIgnored (ordered : Ordered crypto creation opening)
    (other : buffer.header.command ≠ ntfSecuritySetting)
    (unchanged : (onReceiveCompletePackage crypto socket random buffer).after
      opening.state = opening.state) :
    Ordered crypto creation
      (opening.advance crypto (.receive buffer random socket)) := by
  have reached : (opening.advance crypto
      (.receive buffer random socket)).state = opening.state := unchanged
  refine ordered.untouched ?_ rfl rfl other
  rw [reached]
  exact .refl _

/-- While the crypto starts all given packages wait for it. -/
theorem Stage.holds (stage : Stage crypto creation opening)
    (opened : opening.state.connection.isOpening = false)
    {secureConn : SecureConnection PrivateKey}
    (present : opening.state.connection.secureConn = some secureConn)
    (starting : secureConn.state = .starting) :
    opening.Holding ∧ secureConn.pendingList = opening.givenIds := by
  cases stage with
  | opening _ isOpening => rw [opened] at isOpening; cases isOpening
  | starting holding _ isConn _ waiting =>
      rw [present] at isConn
      cases isConn
      exact ⟨holding, waiting⟩
  | ready ready =>
      have isStarted := (opened_of_ready ready).2 secureConn present
      rw [starting] at isStarted
      cases isStarted

theorem Ordered.receiveRsp (ordered : Ordered crypto creation opening)
    (isOpen : opening.IsOpen) {secureConn : SecureConnection PrivateKey}
    (holding : opening.Holding)
    (opened : opening.state.connection.isOpening = false)
    (present : opening.state.connection.secureConn = some secureConn)
    (starting : secureConn.state = .starting)
    (waiting : secureConn.pendingList = opening.givenIds)
    (origin : StartOrigin creation opening.history secureConn)
    (passive : opening.state.connection.openType = .passiveOpen)
    (command : buffer.header.command = rspStartCrypto)
    (calm : opening.Uninterrupted crypto (.receive buffer random socket)) :
    Ordered crypto creation
      (opening.advance crypto (.receive buffer random socket)) := by
  let event := OpeningEvent.receive buffer random socket
  have other : buffer.header.command ≠ ntfSecuritySetting := by
    rw [command]
    decide
  cases creation with
  | active =>
      rw [ordered.openType] at passive
      cases passive
  | passive setting keyPair first =>
      obtain ⟨stored, zero⟩ := origin.keyPair setting keyPair first rfl
      cases decrypts : crypto.rsaDecrypt (content buffer)
          keyPair.privateKey with
      | none =>
          refine ordered.receiveIgnored other ?_
          rw [Action.after, receive_of_starting other opened present starting,
            if_pos ⟨passive, command⟩]
          unfold onRspStartCrypto
          rw [stored]
          dsimp only
          rw [decrypts]
          rfl
      | some plain =>
          obtain ⟨done, rest, resumed, ends⟩ := @Holding.receiveRsp _ _
            crypto opening buffer random socket holding ordered.books
            isOpen.1 _ _ plain waiting command passive opened present
            starting stored decrypts
          have none : rest = [] := by
            rw [ends]
            rintro ⟨idle, interrupted⟩
            rw [← waiting] at interrupted
            exact calm _ (.rspStartCrypto command passive opened present
              starting stored decrypts idle) interrupted
          subst none
          refine resumed.ordered ordered.openType ⟨?_, ?_, ?_⟩
          · intro active
            cases active
          · intro noKey
            cases noKey
          · intro aesKey isKey
            cases isKey
            refine ⟨origin.secure.snoc event, event, by simp [event],
              command, plain, decrypts, ?_⟩
            rw [zero]

theorem Ordered.receiveReq (ordered : Ordered crypto creation opening)
    (isOpen : opening.IsOpen) {secureConn : SecureConnection PrivateKey}
    (holding : opening.Holding)
    (opened : opening.state.connection.isOpening = false)
    (present : opening.state.connection.secureConn = some secureConn)
    (starting : secureConn.state = .starting)
    (waiting : secureConn.pendingList = opening.givenIds)
    (origin : StartOrigin creation opening.history secureConn)
    (active : opening.state.connection.openType = .activeOpen)
    (command : buffer.header.command = reqStartCrypto)
    (calm : opening.Uninterrupted crypto (.receive buffer random socket)) :
    Ordered crypto creation
      (opening.advance crypto (.receive buffer random socket)) := by
  let event := OpeningEvent.receive buffer random socket
  have other : buffer.header.command ≠ ntfSecuritySetting := by
    rw [command]
    decide
  cases creation with
  | passive setting keyPair first =>
      rw [ordered.openType] at active
      cases active
  | active =>
  cases loads : crypto.loadFromString (content buffer) with
  | none =>
      refine ordered.receiveIgnored other ?_
      rw [Action.after, receive_of_starting other opened present starting,
        if_neg (by simp [active]), if_pos ⟨active, command⟩]
      unfold onReqStartCrypto
      rw [loads]
      rfl
  | some publicKey =>
      have keyOrigin : StartOrigin .active (opening.history ++ [event])
          { secureConn with aesKey := random.aesKey } := by
        refine ⟨origin.secure.snoc event, ?_⟩
        intro setting keyPair socket passive
        cases passive
      cases encrypts : crypto.rsaEncrypt random.aesKey random.seed
          publicKey with
      | none =>
          have received := @receiveReq_eq _ _ crypto opening buffer random
            socket _ _ command active opened present starting loads
          have passed : Passed [] opening.state
              (opening.rekey secureConn random.aesKey).state :=
            passed_setSecureConn _ _
          have holds : (opening.rekey secureConn random.aesKey).Holding :=
            holding.passed rfl passed (by simp)
          rw [encrypts] at received
          rw [advance, react, Action.after, received]
          exact ⟨ordered.openType, ordered.books.passed passed (by simp),
            .starting ⟨holds.handed, holds.stored⟩ opened rfl starting
              waiting keyOrigin⟩
      | some cipher =>
          rcases @Holding.receiveReq _ _ crypto opening buffer random socket
            holding ordered.books isOpen.1 _ _ _ waiting command active
            opened present starting loads encrypts with
            ⟨done, rest, resumed, ends⟩ | ⟨-, result, control⟩
          · have none : rest = [] := by
              rw [ends]
              rintro ⟨idle, sent, interrupted⟩
              rw [← waiting] at interrupted
              exact calm _ (.reqStartCrypto command active opened present
                starting loads encrypts idle sent) interrupted
            subst none
            refine resumed.ordered ordered.openType ⟨?_, ?_, ?_⟩
            · intro _
              rcases origin.secure with ⟨_, _, passive⟩ | ⟨setting, member,
                opens⟩
              · cases passive
              · exact ⟨setting, List.mem_append_left _ member,
                  OpeningEvent.isSecuritySetting_of_opensSecurity opens⟩
            · intro noKey
              cases noKey
            · intro aesKey isKey
              cases isKey
              exact ⟨origin.secure.snoc event, event, by simp [event],
                command, rfl, Option.isSome_of_eq_some loads⟩
          · exact ⟨control.openType.trans ordered.openType, control.books,
              .starting ⟨control.holding.handed, control.holding.stored⟩
                (control.isOpening.trans opened) control.secureConn starting
                waiting keyOrigin⟩

theorem Ordered.receiveStarting (ordered : Ordered crypto creation opening)
    (isOpen : opening.IsOpen) {secureConn : SecureConnection PrivateKey}
    (holding : opening.Holding)
    (opened : opening.state.connection.isOpening = false)
    (present : opening.state.connection.secureConn = some secureConn)
    (starting : secureConn.state = .starting)
    (waiting : secureConn.pendingList = opening.givenIds)
    (origin : StartOrigin creation opening.history secureConn)
    (other : buffer.header.command ≠ ntfSecuritySetting)
    (calm : opening.Uninterrupted crypto (.receive buffer random socket)) :
    Ordered crypto creation
      (opening.advance crypto (.receive buffer random socket)) := by
  by_cases rsp : opening.state.connection.openType = .passiveOpen ∧
      buffer.header.command = rspStartCrypto
  · exact ordered.receiveRsp isOpen holding opened present starting waiting
      origin rsp.1 rsp.2 calm
  · by_cases req : opening.state.connection.openType = .activeOpen ∧
        buffer.header.command = reqStartCrypto
    · exact ordered.receiveReq isOpen holding opened present starting waiting
        origin req.1 req.2 calm
    · refine ordered.receiveIgnored other ?_
      rw [Action.after, receive_of_starting other opened present starting,
        if_neg rsp, if_neg req]

/-- An open connection pushes a package on, if it can be decrypted. -/
theorem Ordered.receiveReady (ordered : Ordered crypto creation opening)
    {key : Option (List UInt8)} (ready : Ready key opening.state.connection)
    (other : buffer.header.command ≠ ntfSecuritySetting) :
    Ordered crypto creation
      (opening.advance crypto (.receive buffer random socket)) := by
  suffices untouched : Untouched opening.state
      ((onReceiveCompletePackage crypto socket random buffer).after
        opening.state) from ordered.untouched untouched rfl rfl other
  unfold Action.after onReceiveCompletePackage
  rw [if_neg other, if_neg (by simp [ready.opened])]
  have keyed := ready.keyed
  cases key with
  | none =>
      rw [keyed]
      exact untouched_pushIn _ _
  | some aesKey =>
      obtain ⟨secureConn, present, started, -⟩ := keyed
      rw [present]
      dsimp only [onReceiveSecurePackage]
      rw [started]
      dsimp only
      split
      · exact untouched_pushIn _ _
      · exact .refl _

/-- What one event preserves. -/
theorem Ordered.advance (ordered : Ordered crypto creation opening)
    (isOpen : opening.IsOpen) {event : OpeningEvent}
    (calm : opening.Uninterrupted crypto event)
    (stays : (opening.advance crypto event).IsOpen) :
    Ordered crypto creation (opening.advance crypto event) := by
  cases event with
  | sendPackage package socket =>
      exact ordered.sendPackage isOpen package socket
  | receive buffer random socket =>
      by_cases setting : buffer.header.command = ntfSecuritySetting
      · exact ordered.receiveSetting isOpen setting calm stays
      · cases ordered.stage with
        | opening holding isOpening =>
            refine ordered.receiveIgnored setting ?_
            unfold Action.after onReceiveCompletePackage
            rw [if_neg setting, if_pos isOpening]
        | starting holding opened present starting waiting origin =>
            exact ordered.receiveStarting isOpen holding opened present
              starting waiting origin setting calm
        | ready ready => exact ordered.receiveReady ready setting
  | onWritable result =>
      refine ordered.untouched ?_ rfl rfl id
      exact untouched_onWritable isOpen.1 ordered.books.sendList result

/-- An interrupted event leaves packages behind. -/
theorem Ordered.not_orderly (ordered : Ordered crypto creation opening)
    (isOpen : opening.IsOpen) {event : OpeningEvent}
    (interrupted : ¬opening.Uninterrupted crypto event) :
    ¬((opening.advance crypto event).IsOpen →
      Orderly crypto creation (opening.advance crypto event)) := by
  cases event with
  | sendPackage | onWritable => exact absurd trivial interrupted
  | receive buffer random socket =>
      simp only [Uninterrupted, not_forall, not_not] at interrupted
      obtain ⟨packageIds, flushes, throws⟩ := interrupted
      cases flushes with
      | setting command active isOpening whole setting idle =>
          cases ordered.stage with
          | opening holding _ plain waiting =>
              obtain ⟨done, rest, resumed, ends⟩ := @Holding.receivePlain _ _
                crypto opening buffer random socket holding ordered.books
                isOpen.1 plain waiting command active isOpening whole setting
              refine resumed.not_orderly ?_ isOpen
              rw [Ne, ends, not_not]
              exact ⟨idle, waiting ▸ throws⟩
          | starting _ opened => rw [opened] at isOpening; cases isOpening
          | ready ready => rw [ready.opened] at isOpening; cases isOpening
      | rspStartCrypto command passive opened present starting stored
          decrypts idle =>
          obtain ⟨holding, waiting⟩ := ordered.stage.holds opened present
            starting
          obtain ⟨done, rest, resumed, ends⟩ := @Holding.receiveRsp _ _
            crypto opening buffer random socket holding ordered.books
            isOpen.1 _ _ _ waiting command passive opened present starting
            stored decrypts
          refine resumed.not_orderly ?_ isOpen
          rw [Ne, ends, not_not]
          exact ⟨idle, waiting ▸ throws⟩
      | @reqStartCrypto secureConn publicKey cipher command active opened
          present starting loads encrypts idle sent =>
          obtain ⟨holding, waiting⟩ := ordered.stage.holds opened present
            starting
          rcases @Holding.receiveReq _ _ crypto opening buffer random socket
            holding ordered.books isOpen.1 _ _ _ waiting command active
            opened present starting loads encrypts with
            ⟨done, rest, resumed, ends⟩ | ⟨thrown, -⟩
          · refine resumed.not_orderly ?_ isOpen
            rw [Ne, ends, not_not]
            exact ⟨idle, sent, waiting ▸ throws⟩
          · rw [sent] at thrown
            cases thrown

end Received

/-! ## Runs -/

section Runs

variable {crypto} {creation : Creation PrivateKey}
  {opening : Opening PrivateKey}

theorem Holding.orderly (holding : opening.Holding)
    (nodup : opening.givenIds.Nodup)
    (notOpened : ¬Opened opening.state.connection) :
    Orderly crypto creation opening where
  once := nodup
  inOrder := by
    rw [holding.handed]
    exact List.nil_prefix
  complete opened := absurd opened notOpened
  afterSetting _ _ := holding.handed
  plain _ := by
    rw [holding.handed]
    exact List.nil_prefix
  secure _ some := absurd holding.handed some

theorem enciphered_none (calls : List (Int × PackageEntry)) :
    enciphered crypto none calls = calls :=
  List.map_id calls

theorem Ordered.orderly (ordered : Ordered crypto creation opening) :
    Orderly crypto creation opening := by
  have nodup : opening.givenIds.Nodup := ordered.books.nodup
  cases ordered.stage with
  | opening holding isOpening =>
      apply holding.orderly nodup
      intro opened
      rw [opened.1] at isOpening
      cases isOpening
  | @starting secureConn holding opened present starting =>
      apply holding.orderly nodup
      intro isOpened
      have started := isOpened.2 secureConn present
      rw [starting] at started
      cases started
  | @ready key ready handed origin =>
      have same : opening.handed.map Prod.fst = opening.givenIds := by
        rw [handed, map_fst_enciphered]
        rfl
      refine ⟨nodup, ⟨[], ?_⟩, fun _ => same, ?_, ?_, ?_⟩
      · rw [List.append_nil, same]
      · intro active quiet
        obtain ⟨event, member, isSetting⟩ := origin.setting active
        exact absurd isSetting (quiet event member)
      · intro notSecure
        cases key with
        | none => exact ⟨[], by rw [List.append_nil, handed, enciphered_none]⟩
        | some aesKey => exact absurd (origin.secure aesKey rfl).1 notSecure
      · intro secure _
        cases key with
        | none => exact absurd secure (origin.plain rfl)
        | some aesKey =>
            refine ⟨aesKey, (origin.secure aesKey rfl).2, [], ?_⟩
            rw [List.append_nil, handed]

/-- A connection whose constructor has not finished. -/
theorem ordered_of_unopened {state : ConnectionState PrivateKey}
    (openType : state.connection.openType = creation.openType)
    (holding : ({ state := state, given := [], history := [] } :
      Opening PrivateKey).Holding)
    (books : Books [] state)
    (isOpening : state.connection.isOpening = true)
    (plain : state.connection.secureConn = none)
    (waiting : state.connection.pendingList = []) :
    Ordered crypto creation
      { state := state, given := [], history := [] } := by
  refine ⟨openType, books, .opening holding isOpening plain waiting ?_⟩
  intro event member
  cases member

theorem books_init (openType : ConnectionOpenType) :
    Books [] (ofManagers openType .init [] :
      ConnectionState PrivateKey) where
  nodup := List.nodup_nil
  given_lt packageId member := by cases member
  raw_lt packageId member := by cases member
  sendList packageId member := by cases member

/-- The constructor of a passive connection. -/
theorem ordered_openPassive (setting : SecuritySetting)
    (keyPair : RsaKeyPair PrivateKey) (socket : Int → SendResult) :
    Ordered crypto (.passive (some setting) keyPair socket)
      { state := create .init [] (.passive (some setting) keyPair socket)
        given := [], history := [] } := by
  let creation : Creation PrivateKey := .passive (some setting) keyPair socket
  let atStart : Opening PrivateKey :=
    ⟨ofManagers .passiveOpen .init [], [], []⟩
  have holding : atStart.Holding := by
    refine ⟨rfl, ?_⟩
    intro call member
    cases member
  have notified := @Holding.sendControlPackage _ atStart socket holding
    (books_init _) ntfSecuritySetting [setting.toByte]
  simp only [create, Action.after, openPassive, Action.bind_apply]
  simp only [atStart] at notified
  generalize sendControlPackage socket ntfSecuritySetting [setting.toByte]
    (ofManagers .passiveOpen .init []) = outcome at notified ⊢
  obtain ⟨result, later⟩ := outcome
  rcases notified.ended with ⟨normal, -⟩ | ⟨thrown, -⟩
  · cases normal
    cases setting with
    | closeSecurity =>
        refine ⟨notified.openType,
          ⟨notified.books.nodup, notified.books.given_lt,
            notified.books.raw_lt, notified.books.sendList⟩,
          @Stage.ready _ _ _ _ _ none
            ⟨rfl, notified.isClosing, notified.secureConn⟩
            notified.holding.handed ⟨?_, ?_, ?_⟩⟩
        · intro active
          cases active
        · rintro - (⟨_, _, passive⟩ | ⟨event, member, -⟩)
          · cases passive
          · cases member
        · intro aesKey isKey
          cases isKey
    | openSecurity =>
        have requested := @Holding.sendControlPackage _ _ socket
          notified.holding notified.books reqStartCrypto keyPair.publicKey
        simp only [if_true, createSecureConn, Action.bind_apply]
        dsimp only at requested
        generalize sendControlPackage socket reqStartCrypto keyPair.publicKey
          later = outcome at requested ⊢
        obtain ⟨result, latest⟩ := outcome
        rcases requested.ended with ⟨normal, -⟩ | ⟨thrown, -⟩
        · cases normal
          refine ⟨requested.openType.trans notified.openType,
            ⟨requested.books.nodup, requested.books.given_lt,
              requested.books.raw_lt, requested.books.sendList⟩,
            .starting ⟨requested.holding.handed, requested.holding.stored⟩
              rfl rfl rfl rfl ⟨Or.inl ⟨keyPair, socket, rfl⟩, ?_⟩⟩
          rintro _ _ _ ⟨⟩
          exact ⟨rfl, rfl⟩
        · cases thrown
          exact ordered_of_unopened
            (requested.openType.trans notified.openType) requested.holding
            requested.books (requested.isOpening.trans notified.isOpening)
            (requested.secureConn.trans notified.secureConn)
            (requested.pendingList.trans notified.pendingList)
  · cases thrown
    exact ordered_of_unopened notified.openType notified.holding
      notified.books notified.isOpening notified.secureConn
      notified.pendingList

theorem ordered_start : Ordered crypto creation
    (machine crypto creation).start := by
  have waiting (openType : ConnectionOpenType) :
      ({ state := ofManagers openType .init [], given := [], history := [] } :
        Opening PrivateKey).Holding := by
    refine ⟨rfl, ?_⟩
    intro call member
    cases member
  cases creation with
  | active =>
      exact ordered_of_unopened rfl (waiting _) (books_init _) rfl rfl rfl
  | passive setting keyPair socket =>
      cases setting with
      | none =>
          exact ordered_of_unopened rfl (waiting _) (books_init _) rfl rfl rfl
      | some setting => exact ordered_openPassive setting keyPair socket

end Runs

/-- A connection hands packages on in order throughout a run exactly if no
event of the run is interrupted. -/
theorem orderly_iff_uninterrupted (creation : Creation PrivateKey)
    {events : List OpeningEvent} {last : Opening PrivateKey}
    (run : (machine crypto creation).Reaches events last) :
    (∀ first second, events = first ++ second → ∀ opening,
        (machine crypto creation).Reaches first opening →
          opening.IsOpen → Orderly crypto creation opening) ↔
      (machine crypto creation).StepsMeet (Uninterrupted crypto) events := by
  have cases_step : ∀ {opening event next},
      (machine crypto creation).step opening event = some next →
        opening.IsOpen ∧ next = opening.advance crypto event := by
    intro opening event next stepped
    change step crypto opening event = some next at stepped
    unfold step at stepped
    split at stepped
    · next isOpen => exact ⟨isOpen, (Option.some.inj stepped).symm⟩
    · cases stepped
  refine @Machine.Reaches.throughout_iff_of_stronger _ _ _
    (fun opening => opening.IsOpen → Ordered crypto creation opening)
    (fun _ opening => opening.IsOpen → Orderly crypto creation opening) _
    (fun _ => ordered_start) ?_ ?_ ?_ _ _ run
  · intro _ opening _ ordered isOpen
    exact (ordered isOpen).orderly
  · intro opening event next ordered calm stepped stays
    obtain ⟨isOpen, rfl⟩ := cases_step stepped
    exact (ordered isOpen).advance isOpen calm stays
  · intro _ opening event next ordered interrupted stepped
    obtain ⟨isOpen, rfl⟩ := cases_step stepped
    exact (ordered isOpen).not_orderly isOpen interrupted

/-- Where no call throws nothing is interrupted. -/
theorem not_interrupted {socket : Int → SendResult}
    (never : ∀ packageId, socket packageId ≠ .thrown)
    (packageIds : List Int) : ¬Interrupted socket packageIds := by
  induction packageIds with
  | nil => exact id
  | cons packageId rest inductionHypothesis =>
      rw [interrupted_cons_iff]
      rintro ⟨-, throws | ⟨-, later⟩⟩
      · exact never packageId throws
      · exact inductionHypothesis later

/-- A setting without security. -/
def plainSetting : PackageBuffer where
  data := [2, 0, 2, 0, 0, 0, 1, 0, 0, 0, 0, 0, 0, 0, 0, 0, 0, 0, 1] ++
    List.replicate 319 0
  sized := Or.inl (by rw [List.length_append, List.length_replicate]; rfl)

/-- A library that rejects all keys. -/
def noCrypto : CryptoLibrary Unit Unit where
  loadFromString _ := none
  rsaEncrypt _ _ _ := none
  rsaDecrypt _ _ := none
  encryptor _ := ProtocolPackage.copyEncryptor
  decryptor _ := Connection.copyDecryptor

/-- Two packages wait for the setting, and a third one follows it. -/
def threeGiven (socket : Int → SendResult) : List OpeningEvent :=
  let package := controlPackage 1030 []
  [.sendPackage package socket, .sendPackage package socket,
    .receive plainSetting ⟨List.replicate 32 0, [], rfl⟩ socket,
    .sendPackage package fun _ => .whole]

theorem orderly_iff_uninterrupted_threeGiven :
    ∃ last, (machine noCrypto .active).Reaches
        (threeGiven fun _ => .whole) last ∧
      (last.IsOpen → Orderly noCrypto .active last) := by
  obtain ⟨last, run⟩ : ∃ last, (machine noCrypto .active).Reaches
      (threeGiven fun _ => .whole) last := ⟨_, rfl⟩
  refine ⟨last, run, (orderly_iff_uninterrupted noCrypto .active run).mpr ?_
    _ [] (List.append_nil _).symm last run⟩
  apply Machine.StepsMeet.of_forall
  intro event member opening
  have whole : ∀ packageIds, ¬Interrupted (fun _ => .whole) packageIds :=
    not_interrupted (by simp)
  simp only [threeGiven, List.mem_cons, List.not_mem_nil, or_false] at member
  rcases member with rfl | rfl | rfl | rfl
  · trivial
  · trivial
  · exact fun packageIds _ => whole packageIds
  · trivial

/-- An exception at the first of two packages that wait: the second one stays
behind, and the third one overtakes it. -/
theorem not_orderly_threeGiven :
    ¬∀ last, (machine noCrypto .active).Reaches
        (threeGiven fun _ => .thrown) last →
      last.IsOpen → Orderly noCrypto .active last := by
  intro orderly
  have inOrder := (orderly _ rfl (by decide)).inOrder
  revert inOrder
  decide

end Opening

end Details
end Foundation
end Spaceless
