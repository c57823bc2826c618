import Spaceless.Foundation.Passing

/-!
# Packages in the custody of a connection

While a package waits in one of the lists of a connection, the connection
holds it.  An operation in which the socket does not throw lets none go: a
package that nobody holds afterwards was held by nobody before.
-/

namespace Spaceless
namespace Foundation
namespace Details

open Crypto Logic

theorem PackageManager.registered_of_removePackage {packages : PackageManager}
    {packageId other : Int}
    (registered :
      ((packages.removePackage packageId).findPackage other).isSome = true) :
    other ≠ packageId ∧ (packages.findPackage other).isSome = true := by
  have lookup : (packages.removePackage packageId).findPackage other =
      if packageId = other then none else packages.findPackage other :=
    Table.lookup_erase _ _ _
  rw [lookup] at registered
  split at registered
  · cases registered
  · next different => exact ⟨Ne.symm different, registered⟩

namespace ConnectionState

variable {PublicKey PrivateKey : Type}

/-- A package for the network that is registered and that the connection does
not hold. -/
structure Loose (state : ConnectionState PrivateKey) (packageId : Int) :
    Prop where
  registered : (state.findPackage packageId).isSome = true
  outgoing : packageId ∉ state.inQueue
  notSending : packageId ∉ state.connection.sendList
  notPending : packageId ∉ pendings state
  notSecure : packageId ∉ securePendings state

/-- A connection that is opening has no secure connection. -/
def Unopened (connection : NetworkConnectionImpl PrivateKey) : Prop :=
  connection.isOpening = true → connection.secureConn = none

/-- No package gets lost between the states. -/
structure Carried (before after : ConnectionState PrivateKey) : Prop where
  loose : ∀ packageId, Loose after packageId → Loose before packageId
  unopened : Unopened before.connection → Unopened after.connection
  destroyed : after.connection.destroyed = before.connection.destroyed

namespace Carried

variable {before middle after : ConnectionState PrivateKey}

theorem refl (state : ConnectionState PrivateKey) : Carried state state :=
  ⟨fun _ => id, id, rfl⟩

theorem trans (first : Carried before middle)
    (second : Carried middle after) : Carried before after where
  loose packageId loose := first.loose packageId (second.loose packageId loose)
  unopened unopened := second.unopened (first.unopened unopened)
  destroyed := second.destroyed.trans first.destroyed

end Carried

/-- What sending a package does to it: it is not left behind. -/
structure Sent (packageId : Int) (before : ConnectionState PrivateKey)
    (outcome : Except ConnectionFault Unit × ConnectionState PrivateKey) :
    Prop where
  normal : outcome.1 = .ok ()
  loose : ∀ other, Loose outcome.2 other →
    Loose before other ∧ other ≠ packageId
  isOpening : outcome.2.connection.isOpening = before.connection.isOpening
  destroyed : outcome.2.connection.destroyed = before.connection.destroyed
  plain : before.connection.secureConn = none →
    outcome.2.connection.secureConn = none
  pendingList : before.connection.isOpening = false →
    pendings outcome.2 = pendings before
  started : ∀ secureConn, before.connection.secureConn = some secureConn →
    secureConn.state = .started →
      outcome.2.connection.secureConn = some secureConn

theorem Sent.carried {packageId : Int}
    {before : ConnectionState PrivateKey}
    {outcome : Except ConnectionFault Unit × ConnectionState PrivateKey}
    (sent : Sent packageId before outcome) : Carried before outcome.2 where
  loose other loose := (sent.loose other loose).1
  unopened unopened isOpening :=
    sent.plain (unopened (sent.isOpening.symm.trans isOpening))
  destroyed := sent.destroyed

/-! ## One package -/

theorem Loose.of_removePackage {state : ConnectionState PrivateKey}
    {packageId other : Int}
    (loose : Loose (state.removePackage packageId) other) :
    Loose state other ∧ other ≠ packageId := by
  obtain ⟨different, registered⟩ :=
    PackageManager.registered_of_removePackage loose.registered
  exact ⟨⟨registered, loose.outgoing, loose.notSending, loose.notPending,
    loose.notSecure⟩, different⟩

theorem Loose.of_pushSendList {state : ConnectionState PrivateKey}
    {packageId other : Int}
    (loose : Loose (state.pushSendList packageId) other) :
    Loose state other ∧ other ≠ packageId := by
  have notSending := loose.notSending
  simp only [pushSendList, List.mem_append, List.mem_singleton, not_or]
    at notSending
  exact ⟨⟨loose.registered, loose.outgoing, notSending.1, loose.notPending,
    loose.notSecure⟩, notSending.2⟩

/-- The record of calls is not a list of waiting packages. -/
theorem Loose.of_record {state : ConnectionState PrivateKey}
    {packageId other : Int} (loose : Loose (state.record packageId) other) :
    Loose state other := by
  unfold record at loose
  split at loose
  · exact loose
  · exact ⟨loose.registered, loose.outgoing, loose.notSending,
      loose.notPending, loose.notSecure⟩

/-- A call of `send_raw_package` changes the send list and the record of
calls. -/
theorem connection_sendRawPackage (socket : Int → SendResult)
    (packageId : Int) (state : ConnectionState PrivateKey) :
    ∃ sendList raw, (sendRawPackage socket packageId state).2.connection =
      { state.connection with sendList := sendList, raw := raw } := by
  have recorded : ∃ raw, (state.record packageId).connection =
      { state.connection with raw := raw } := by
    unfold record
    split
    · exact ⟨_, rfl⟩
    · exact ⟨_, rfl⟩
  obtain ⟨raw, recorded⟩ := recorded
  have pushed : ((state.record packageId).pushSendList packageId).connection =
      { state.connection with
        sendList := (state.record packageId).connection.sendList ++
          [packageId]
        raw := raw } := by
    rw [pushSendList, recorded]
  have kept : (state.record packageId).connection =
      { state.connection with
        sendList := state.connection.sendList, raw := raw } := recorded
  unfold sendRawPackage
  split
  · exact ⟨_, _, pushed⟩
  · split
    · exact ⟨_, _, kept⟩
    · exact ⟨_, _, pushed⟩
    · exact ⟨_, _, kept⟩

theorem sendRawPackage_kept {socket : Int → SendResult} {packageId : Int}
    (accepts : socket packageId ≠ .thrown)
    (state : ConnectionState PrivateKey) :
    Sent packageId state (sendRawPackage socket packageId state) := by
  obtain ⟨sendList, raw, connection⟩ :=
    connection_sendRawPackage socket packageId state
  suffices ended : (sendRawPackage socket packageId state).1 = .ok () ∧
      ∀ other, Loose (sendRawPackage socket packageId state).2 other →
        Loose state other ∧ other ≠ packageId by
    refine ⟨ended.1, ended.2, ?_, ?_, ?_, ?_, ?_⟩ <;>
      simp only [connection, pendings]
    · exact id
    · exact fun _ => trivial
    · exact fun _ present _ => present
  unfold sendRawPackage
  split
  · refine ⟨rfl, fun other loose => ?_⟩
    have pushed := loose.of_pushSendList
    exact ⟨pushed.1.of_record, pushed.2⟩
  · split
    · refine ⟨rfl, fun other loose => ?_⟩
      have removed := loose.of_removePackage
      exact ⟨removed.1.of_record, removed.2⟩
    · refine ⟨rfl, fun other loose => ?_⟩
      have pushed := loose.of_pushSendList
      exact ⟨pushed.1.of_record, pushed.2⟩
    · next thrown => exact absurd thrown accepts

section Sending

variable {crypto : CryptoLibrary PublicKey PrivateKey}
  {socket : Int → SendResult} {packageId : Int}

/-- Encryption in place does not remove a package. -/
theorem Loose.of_encipherAt {state : ConnectionState PrivateKey}
    {key : Option (List UInt8)} {other : Int}
    (loose : Loose (state.encipherAt crypto key packageId) other) :
    Loose state other := by
  have registered := loose.registered
  refine ⟨?_, ?_, ?_, ?_, ?_⟩
  · by_cases same : packageId = other
    · subst same
      cases found : state.findPackage packageId with
      | some package => rfl
      | none =>
          have unchanged : state.encipherAt crypto key packageId = state := by
            cases key with
            | none => rfl
            | some aesKey =>
                have absent : state.packages.findPackage packageId = none :=
                  found
                simp only [encipherAt, PackageManager.encrypt, absent]
          rw [unchanged, found] at registered
          exact registered
    · rwa [findPackage_encipherAt_of_ne same] at registered
  · simpa using loose.outgoing
  · simpa using loose.notSending
  · simpa [pendings] using loose.notPending
  · simpa [securePendings] using loose.notSecure

theorem sendSecurePackage_kept (accepts : socket packageId ≠ .thrown)
    {state : ConnectionState PrivateKey}
    {secureConn : SecureConnection PrivateKey}
    (present : state.connection.secureConn = some secureConn) :
    Sent packageId state (sendSecurePackage crypto socket packageId state) := by
  unfold sendSecurePackage
  simp only [present]
  cases starting : secureConn.state with
  | starting =>
      refine ⟨rfl, ?_, rfl, rfl, ?_, fun _ => rfl, ?_⟩
      · intro other loose
        have notSecure := loose.notSecure
        simp only [securePendings, setSecureConn, List.mem_append,
          List.mem_singleton, not_or] at notSecure
        refine ⟨⟨loose.registered, loose.outgoing, loose.notSending,
          loose.notPending, ?_⟩, notSecure.2⟩
        rw [securePendings, present]
        exact notSecure.1
      · intro plain
        rw [present] at plain
        cases plain
      · intro other isConn started
        rw [present] at isConn
        cases isConn
        rw [starting] at started
        cases started
  | started =>
      have sent := sendRawPackage_kept accepts
        (state.encipherAt crypto (some secureConn.aesKey) packageId)
      refine ⟨sent.normal, ?_, sent.isOpening, sent.destroyed, sent.plain,
        sent.pendingList, sent.started⟩
      intro other loose
      obtain ⟨encrypted, different⟩ := sent.loose other loose
      exact ⟨encrypted.of_encipherAt, different⟩

/-- A closing connection removes a package, another one sends it or lets it
wait. -/
theorem sendPackage_kept (accepts : socket packageId ≠ .thrown)
    (state : ConnectionState PrivateKey) :
    Sent packageId state (sendPackage crypto socket packageId state) := by
  unfold sendPackage
  split
  · exact ⟨rfl, fun _ loose => loose.of_removePackage, rfl, rfl, id,
      fun _ => rfl, fun _ present _ => present⟩
  · split
    · next present => exact sendSecurePackage_kept accepts present
    · next plain =>
        split
        · next isOpening =>
            refine ⟨rfl, ?_, rfl, rfl, id, ?_, fun _ present _ => present⟩
            · intro other loose
              have notPending := loose.notPending
              simp only [pendings, List.mem_append, List.mem_singleton,
                not_or] at notPending
              exact ⟨⟨loose.registered, loose.outgoing, loose.notSending,
                notPending.1, loose.notSecure⟩, notPending.2⟩
            · intro opened
              rw [isOpening] at opened
              cases opened
        · exact sendRawPackage_kept accepts state

/-- A package of the framework is registered and sent. -/
theorem sendControlPackage_carried {state : ConnectionState PrivateKey}
    (accepts : socket state.packages.nextId ≠ .thrown) (command : Int)
    (content : List UInt8) :
    (sendControlPackage socket command content state).1 = .ok () ∧
      Carried state (sendControlPackage socket command content state).2 := by
  let registered := state.register (controlPackage command content)
  have sent : Sent state.packages.nextId registered
      (sendControlPackage socket command content state) :=
    sendRawPackage_kept accepts registered
  refine ⟨sent.normal, ?_, sent.carried.unopened, sent.destroyed⟩
  intro other loose
  obtain ⟨still, different⟩ := sent.loose other loose
  refine ⟨?_, still.outgoing, still.notSending, still.notPending,
    still.notSecure⟩
  have found : registered.findPackage other = state.findPackage other :=
    Table.lookup_insert_of_ne _ _ different.symm
  rw [← found]
  exact still.registered

/-- A package of the framework changes the send list and the record of
calls. -/
theorem connection_sendControlPackage (state : ConnectionState PrivateKey)
    (command : Int) (content : List UInt8) :
    ∃ sendList raw,
      (sendControlPackage socket command content state).2.connection =
        { state.connection with sendList := sendList, raw := raw } :=
  connection_sendRawPackage socket state.packages.nextId
    (state.register (controlPackage command content))

end Sending

/-! ## A list is worked off -/

/-- A list of waiting packages that the loop can work off: what leaves it is
sent, and nothing joins it meanwhile. -/
structure Drain (ready : ConnectionState PrivateKey → Prop)
    (waits : ConnectionState PrivateKey → List Int)
    (pop : List Int → ConnectionState PrivateKey →
      ConnectionState PrivateKey)
    (send : Int → Operation PrivateKey Unit) : Prop where
  waits_pop : ∀ rest state, ready state → waits (pop rest state) = rest
  ready_pop : ∀ rest state, ready state → ready (pop rest state)
  loose_pop : ∀ rest state, ready state → ∀ packageId,
    waits state = packageId :: rest → ∀ other,
      Loose (pop rest state) other → Loose state other ∨ other = packageId
  unopened_pop : ∀ rest state, Unopened state.connection →
    Unopened (pop rest state).connection
  destroyed_pop : ∀ rest state,
    (pop rest state).connection.destroyed = state.connection.destroyed
  sent : ∀ packageId state, ready state →
    Sent packageId state (send packageId state)
  ready_send : ∀ packageId state, ready state →
    ready (send packageId state).2
  waits_send : ∀ packageId state, ready state →
    waits (send packageId state).2 = waits state

theorem flush_carried {ready : ConnectionState PrivateKey → Prop}
    {waits : ConnectionState PrivateKey → List Int}
    {pop : List Int → ConnectionState PrivateKey →
      ConnectionState PrivateKey}
    {send : Int → Operation PrivateKey Unit}
    (drain : Drain ready waits pop send) {packageIds : List Int}
    {state : ConnectionState PrivateKey} (isReady : ready state)
    (waiting : waits state = packageIds) :
    Carried state ((flush pop send packageIds).after state) := by
  induction packageIds generalizing state with
  | nil => exact .refl state
  | cons packageId rest inductionHypothesis =>
      let popped := pop rest state
      have readyPopped : ready popped := drain.ready_pop rest state isReady
      have waitsPopped : waits popped = rest :=
        drain.waits_pop rest state isReady
      have loosePopped : ∀ other, Loose popped other → other ≠ packageId →
          Loose state other := by
        intro other loose different
        exact (drain.loose_pop rest state isReady packageId waiting other
          loose).resolve_right different
      have unopened : Unopened state.connection → Unopened popped.connection :=
        drain.unopened_pop rest state
      have destroyed : popped.connection.destroyed =
          state.connection.destroyed := drain.destroyed_pop rest state
      cases found : popped.findPackage packageId with
      | none =>
          have skipped : (flush pop send (packageId :: rest)).after state =
              (flush pop send rest).after popped := by
            simp only [Action.after, flush]
            rw [show (pop rest state).findPackage packageId = none from found]
          rw [skipped]
          refine Carried.trans ⟨?_, unopened, destroyed⟩
            (inductionHypothesis readyPopped waitsPopped)
          intro other loose
          apply loosePopped other loose
          rintro rfl
          have registered := loose.registered
          rw [found] at registered
          cases registered
      | some package =>
          have sent := drain.sent packageId popped readyPopped
          have passed : (flush pop send (packageId :: rest)).after state =
              (flush pop send rest).after (send packageId popped).2 := by
            have step : flush pop send (packageId :: rest) state =
                (send packageId >>= fun _ => flush pop send rest) popped := by
              simp only [flush]
              rw [show (pop rest state).findPackage packageId = some package
                from found]
            rw [Action.after, step]
            exact Action.after_bind_of_ok sent.normal
          rw [passed]
          refine Carried.trans ⟨?_, ?_, ?_⟩ (inductionHypothesis
            (drain.ready_send packageId popped readyPopped)
            ((drain.waits_send packageId popped readyPopped).trans
              waitsPopped))
          · intro other loose
            obtain ⟨still, different⟩ := sent.loose other loose
            exact loosePopped other still different
          · exact fun before => sent.carried.unopened (unopened before)
          · exact sent.destroyed.trans destroyed

section Lists

variable {crypto : CryptoLibrary PublicKey PrivateKey}
  {socket : Int → SendResult} {state : ConnectionState PrivateKey}

/-- The list of the opening, once the connection is open. -/
theorem drain_pendingList
    (accepts : ∀ packageId, socket packageId ≠ .thrown) :
    Drain (fun state => state.connection.isOpening = false)
      (@pendings PrivateKey) setPendingList
      (sendPackage crypto socket) where
  waits_pop _ _ _ := rfl
  ready_pop _ _ opened := opened
  loose_pop rest state _ packageId waiting other loose := by
    by_cases same : other = packageId
    · exact Or.inr same
    · left
      refine ⟨loose.registered, loose.outgoing, loose.notSending, ?_,
        loose.notSecure⟩
      rw [waiting, List.mem_cons, not_or]
      exact ⟨same, loose.notPending⟩
  unopened_pop _ _ unopened := unopened
  destroyed_pop _ _ := rfl
  sent packageId state _ := sendPackage_kept (accepts packageId) state
  ready_send packageId state opened :=
    (sendPackage_kept (accepts packageId) state).isOpening.trans opened
  waits_send packageId state opened :=
    (sendPackage_kept (accepts packageId) state).pendingList opened

/-- The crypto of a connection has started. -/
def Started (state : ConnectionState PrivateKey) : Prop :=
  ∃ secureConn, state.connection.secureConn = some secureConn ∧
    secureConn.state = .started

theorem securePendings_of_some {secureConn : SecureConnection PrivateKey}
    (present : state.connection.secureConn = some secureConn) :
    securePendings state = secureConn.pendingList := by
  rw [securePendings, present]

theorem secureConn_setSecurePendingList
    {secureConn : SecureConnection PrivateKey}
    (present : state.connection.secureConn = some secureConn)
    (rest : List Int) :
    (setSecurePendingList rest state).connection.secureConn =
      some { secureConn with pendingList := rest } := by
  simp [setSecurePendingList, present]

/-- The list of the crypto start, once the crypto has started. -/
theorem drain_securePendingList
    (accepts : ∀ packageId, socket packageId ≠ .thrown) :
    Drain Started (@securePendings PrivateKey) setSecurePendingList
      (sendSecurePackage crypto socket) where
  waits_pop rest state := by
    rintro ⟨secureConn, present, -⟩
    exact securePendings_of_some (secureConn_setSecurePendingList present rest)
  ready_pop rest state := by
    rintro ⟨secureConn, present, started⟩
    exact ⟨_, secureConn_setSecurePendingList present rest, started⟩
  loose_pop rest state := by
    rintro ⟨secureConn, present, -⟩ packageId waiting other loose
    by_cases same : other = packageId
    · exact Or.inr same
    · left
      refine ⟨loose.registered, loose.outgoing, loose.notSending,
        loose.notPending, ?_⟩
      have later := loose.notSecure
      rw [securePendings_of_some
        (secureConn_setSecurePendingList present rest)] at later
      rw [waiting, List.mem_cons, not_or]
      exact ⟨same, later⟩
  unopened_pop rest state unopened isOpening := by
    have plain := unopened isOpening
    simp [setSecurePendingList, plain]
  destroyed_pop _ _ := rfl
  sent packageId state := by
    rintro ⟨secureConn, present, -⟩
    exact sendSecurePackage_kept (accepts packageId) present
  ready_send packageId state := by
    rintro ⟨secureConn, present, started⟩
    exact ⟨secureConn, (sendSecurePackage_kept (accepts packageId)
      present).started secureConn present started, started⟩
  waits_send packageId state := by
    rintro ⟨secureConn, present, started⟩
    have sent : Sent packageId state
        (sendSecurePackage crypto socket packageId state) :=
      sendSecurePackage_kept (accepts packageId) present
    rw [securePendings_of_some (sent.started secureConn present started),
      securePendings_of_some present]

/-- A secure connection takes the place of another one with the same list. -/
theorem carried_setSecureConn {secureConn : SecureConnection PrivateKey}
    (opened : state.connection.isOpening = false)
    (sameList : secureConn.pendingList = securePendings state) :
    Carried state (state.setSecureConn secureConn) where
  loose packageId loose := by
    refine ⟨loose.registered, loose.outgoing, loose.notSending,
      loose.notPending, ?_⟩
    rw [← sameList]
    exact loose.notSecure
  unopened _ isOpening := by
    have closed : state.connection.isOpening = true := isOpening
    rw [opened] at closed
    cases closed
  destroyed := rfl

theorem start_carried (accepts : ∀ packageId, socket packageId ≠ .thrown)
    {secureConn : SecureConnection PrivateKey}
    (opened : state.connection.isOpening = false)
    (sameList : secureConn.pendingList = securePendings state) :
    Carried state ((start crypto socket secureConn).after state) := by
  let started := state.setSecureConn { secureConn with state := .started }
  have carried : Carried state started :=
    carried_setSecureConn opened sameList
  exact carried.trans (flush_carried (drain_securePendingList accepts)
    ⟨_, rfl, rfl⟩ rfl)

/-- The end of the crypto start, with what it answers on the active side. -/
theorem sendControlPackage_start_carried
    (accepts : ∀ packageId, socket packageId ≠ .thrown)
    {secureConn : SecureConnection PrivateKey}
    (opened : state.connection.isOpening = false)
    (sameList : secureConn.pendingList = securePendings state)
    (command : Int) (content : List UInt8) :
    Carried state ((sendControlPackage socket command content >>=
      fun _ => start crypto socket secureConn).after state) := by
  obtain ⟨normal, carried⟩ :=
    @sendControlPackage_carried _ socket state (accepts _) command content
  obtain ⟨sendList, raw, connection⟩ :=
    @connection_sendControlPackage _ socket state command content
  rw [Action.after_bind_of_ok normal]
  refine carried.trans (start_carried accepts ?_ ?_)
  · rw [connection]
    exact opened
  · rw [securePendings, connection]
    exact sameList

theorem pushIn_carried (state : ConnectionState PrivateKey)
    (package : InPackage) : Carried state (state.pushIn package) where
  loose packageId loose := by
    have outgoing := loose.outgoing
    simp only [pushIn, List.mem_append, List.mem_singleton, not_or]
      at outgoing
    have found : (state.pushIn package).findPackage packageId =
        state.findPackage packageId :=
      Table.lookup_insert_of_ne _ _ (Ne.symm outgoing.2)
    refine ⟨?_, outgoing.1, loose.notSending, loose.notPending,
      loose.notSecure⟩
    rw [← found]
    exact loose.registered
  unopened := id
  destroyed := rfl

theorem onRspStartCrypto_carried
    (accepts : ∀ packageId, socket packageId ≠ .thrown)
    {secureConn : SecureConnection PrivateKey}
    (opened : state.connection.isOpening = false)
    (sameList : secureConn.pendingList = securePendings state)
    (content : List UInt8) :
    Carried state
      ((onRspStartCrypto crypto socket secureConn content).after state) := by
  unfold onRspStartCrypto
  cases secureConn.privateKey with
  | none => exact .refl state
  | some privateKey =>
      dsimp only
      cases crypto.rsaDecrypt content privateKey with
      | none => exact .refl state
      | some plain => exact start_carried accepts opened sameList

theorem onReqStartCrypto_carried
    (accepts : ∀ packageId, socket packageId ≠ .thrown) (random : Random)
    {secureConn : SecureConnection PrivateKey}
    (opened : state.connection.isOpening = false)
    (sameList : secureConn.pendingList = securePendings state)
    (content : List UInt8) :
    Carried state ((onReqStartCrypto crypto socket random secureConn
      content).after state) := by
  unfold onReqStartCrypto
  cases crypto.loadFromString content with
  | none => exact .refl state
  | some publicKey =>
      let keyed : SecureConnection PrivateKey :=
        { secureConn with aesKey := random.aesKey }
      have carried : Carried state (state.setSecureConn keyed) :=
        carried_setSecureConn opened sameList
      dsimp only
      rw [Action.after, Action.bind_apply, Action.modify_apply]
      dsimp only
      cases crypto.rsaEncrypt random.aesKey random.seed publicKey with
      | none => exact carried
      | some cipher =>
          have answered := @sendControlPackage_start_carried _ _ crypto
            socket (state.setSecureConn keyed) accepts keyed opened rfl
            rspStartCrypto cipher
          exact carried.trans answered

/-- What a secure connection does with a package. -/
theorem onReceiveSecurePackage_carried
    (accepts : ∀ packageId, socket packageId ≠ .thrown) (random : Random)
    {secureConn : SecureConnection PrivateKey}
    (opened : state.connection.isOpening = false)
    (present : state.connection.secureConn = some secureConn)
    (buffer : PackageBuffer) :
    Carried state ((onReceiveSecurePackage crypto socket random secureConn
      buffer).after state) := by
  have sameList := (securePendings_of_some present).symm
  unfold Action.after onReceiveSecurePackage
  dsimp only
  split
  · split
    · exact onRspStartCrypto_carried accepts opened sameList _
    · split
      · exact onReqStartCrypto_carried accepts random opened sameList _
      · exact .refl state
  · split
    · exact pushIn_carried state _
    · exact .refl state

end Lists

/-! ## The end of a connection -/

/-- No package that is registered waits for the opening or for the crypto
start. -/
def NoneWait (state : ConnectionState PrivateKey) : Prop :=
  ∀ packageId, (state.findPackage packageId).isSome = true →
    packageId ∉ pendings state ∧ packageId ∉ securePendings state

/-- A package in one of the lists. -/
def Holds (state : ConnectionState PrivateKey) (packageId : Int) : Prop :=
  packageId ∈ state.connection.sendList ∨ packageId ∈ pendings state ∨
    packageId ∈ securePendings state

theorem Loose.not_holds {state : ConnectionState PrivateKey}
    {packageId : Int} (loose : Loose state packageId) :
    ¬Holds state packageId := by
  rintro (sending | pending | secure)
  · exact loose.notSending sending
  · exact loose.notPending pending
  · exact loose.notSecure secure

theorem loose_of_not_holds {state : ConnectionState PrivateKey}
    {packageId : Int}
    (registered : (state.findPackage packageId).isSome = true)
    (outgoing : packageId ∉ state.inQueue)
    (notHeld : ¬Holds state packageId) : Loose state packageId :=
  ⟨registered, outgoing, fun held => notHeld (Or.inl held),
    fun held => notHeld (Or.inr (Or.inl held)),
    fun held => notHeld (Or.inr (Or.inr held))⟩

/-- No package gets lost in an event, also if the connection ends. -/
structure Settled (before after : ConnectionState PrivateKey) : Prop where
  loose : ∀ packageId, Loose after packageId → Loose before packageId
  unopened : Unopened before.connection → Unopened after.connection
  released : before.connection.destroyed = false →
    after.connection.destroyed = true → ∀ packageId, ¬Holds after packageId

namespace Settled

variable {before middle after : ConnectionState PrivateKey}

theorem of_carried (carried : Carried before after) :
    Settled before after where
  loose := carried.loose
  unopened := carried.unopened
  released alive destroyed := by
    rw [carried.destroyed, alive] at destroyed
    cases destroyed

theorem after_carried (carried : Carried before middle)
    (settled : Settled middle after) : Settled before after where
  loose packageId loose :=
    carried.loose packageId (settled.loose packageId loose)
  unopened unopened := settled.unopened (carried.unopened unopened)
  released alive := settled.released (carried.destroyed.trans alive)

/-- The packages of a connection that ends are removed. -/
theorem removed (settled : Settled before after)
    (alive : before.connection.destroyed = false)
    (destroyed : after.connection.destroyed = true) {packageId : Int}
    (held : Holds before packageId) (outgoing : packageId ∉ after.inQueue) :
    after.findPackage packageId = none := by
  by_contra present
  have registered : (after.findPackage packageId).isSome = true :=
    Option.isSome_iff_ne_none.mpr present
  have loose : Loose after packageId := loose_of_not_holds registered outgoing
    (settled.released alive destroyed packageId)
  exact (settled.loose packageId loose).not_holds held

end Settled

theorem findPackage_removePackages {packages : PackageManager}
    {packageIds : List Int} {packageId : Int}
    (registered : ((packageIds.foldl PackageManager.removePackage
      packages).findPackage packageId).isSome = true) :
    packageId ∉ packageIds ∧
      (packages.findPackage packageId).isSome = true := by
  induction packageIds generalizing packages with
  | nil => exact ⟨List.not_mem_nil, registered⟩
  | cons first rest inductionHypothesis =>
      obtain ⟨notLater, found⟩ := inductionHypothesis registered
      obtain ⟨different, before⟩ :=
        PackageManager.registered_of_removePackage found
      refine ⟨?_, before⟩
      rw [List.mem_cons, not_or]
      exact ⟨different, notLater⟩

/-- The packages of the send list are removed with the connection. -/
theorem destroy_settled {state : ConnectionState PrivateKey}
    (noneWait : NoneWait state) : Settled state state.destroy where
  loose packageId loose := by
    obtain ⟨notSending, registered⟩ :=
      findPackage_removePackages loose.registered
    obtain ⟨notPending, notSecure⟩ := noneWait packageId registered
    exact ⟨registered, loose.outgoing, notSending, notPending, notSecure⟩
  unopened unopened isOpening := by
    have plain := unopened isOpening
    simp [destroy, plain]
  released _ _ packageId := by
    rintro (sending | pending | secure)
    · cases sending
    · cases pending
    · unfold securePendings destroy at secure
      cases present : state.connection.secureConn with
      | none => simp [present] at secure
      | some secureConn => simp [present] at secure

theorem close_settled {state : ConnectionState PrivateKey}
    (noneWait : state.connection.sendList = [] → NoneWait state) :
    Settled state state.close := by
  unfold close
  split
  · next idle => exact destroy_settled (noneWait idle)
  · refine .of_carried ⟨?_, id, rfl⟩
    intro packageId loose
    exact ⟨loose.registered, loose.outgoing, loose.notSending,
      loose.notPending, loose.notSecure⟩

section Ends

variable {crypto : CryptoLibrary PublicKey PrivateKey}
  {socket : Int → SendResult} {state : ConnectionState PrivateKey}

/-- Whether a connection takes a security setting. -/
def TakesSetting (state : ConnectionState PrivateKey)
    (buffer : PackageBuffer) : Prop :=
  state.connection.openType = .activeOpen ∧
    state.connection.isOpening = true ∧
      1 ≤ sizeOfInt buffer.header.contentLength

theorem onNtfSecuritySetting_carried
    (accepts : ∀ packageId, socket packageId ≠ .thrown)
    {buffer : PackageBuffer} (unopened : Unopened state.connection)
    (takes : state.TakesSetting buffer) :
    Carried state
      ((onNtfSecuritySetting crypto socket buffer).after state) := by
  obtain ⟨active, isOpening, whole⟩ := takes
  have plain := unopened isOpening
  let opened := { state with
    connection := { state.connection with isOpening := false } }
  have carried : Carried state opened := by
    refine ⟨?_, ?_, rfl⟩
    · intro packageId loose
      exact ⟨loose.registered, loose.outgoing, loose.notSending,
        loose.notPending, loose.notSecure⟩
    · rintro - ⟨⟩
  unfold Action.after onNtfSecuritySetting
  rw [if_neg (by simp [active]), if_neg (by simp [isOpening]),
    if_neg (by omega)]
  dsimp only
  split
  · refine (carried.trans (carried_setSecureConn rfl ?_)).trans
      (flush_carried (drain_pendingList accepts) rfl rfl)
    rw [securePendings, show opened.connection.secureConn = none from plain]
  · exact carried.trans
      (flush_carried (drain_pendingList accepts) rfl rfl)

/-- A received package. -/
theorem onReceiveCompletePackage_settled
    (accepts : ∀ packageId, socket packageId ≠ .thrown) (random : Random)
    {buffer : PackageBuffer} (unopened : Unopened state.connection)
    (noneWait : buffer.header.command = ntfSecuritySetting →
      ¬state.TakesSetting buffer → state.connection.sendList = [] →
        NoneWait state) :
    Settled state ((onReceiveCompletePackage crypto socket random buffer).after
      state) := by
  unfold Action.after onReceiveCompletePackage
  split
  · next setting =>
      by_cases takes : state.TakesSetting buffer
      · exact .of_carried
          (onNtfSecuritySetting_carried accepts unopened takes)
      · rw [onNtfSecuritySetting_of_refused takes]
        exact close_settled (noneWait setting takes)
  · split
    · exact .of_carried (.refl state)
    · next opened =>
        split
        · exact .of_carried (pushIn_carried state _)
        · next present =>
            exact .of_carried (onReceiveSecurePackage_carried accepts random
              (Bool.of_not_eq_true opened) present buffer)

/-- The first loop of `on_writable` drops packages that are gone. -/
theorem mem_dropRemoved {packages : PackageManager} {packageIds : List Int}
    {packageId : Int}
    (registered : (packages.findPackage packageId).isSome = true)
    (member : packageId ∈ packageIds) :
    packageId ∈ dropRemoved packages packageIds := by
  induction packageIds with
  | nil => exact member
  | cons first rest inductionHypothesis =>
      unfold dropRemoved at inductionHypothesis ⊢
      rw [List.dropWhile_cons]
      split
      · next gone =>
          rcases List.mem_cons.mp member with rfl | later
          · rw [Option.isNone_iff_eq_none.mp gone] at registered
            cases registered
          · exact inductionHypothesis later
      · exact member

/-- The socket takes the rest of the first package that waits. -/
theorem onWritable_settled {result : SendResult}
    (noneWait : state.connection.isClosing = true → result = .whole →
      (∃ packageId, dropRemoved state.packages state.connection.sendList =
        [packageId]) → NoneWait state) :
    Settled state ((onWritable result).after state) := by
  let found (sendList : List Int) : ConnectionState PrivateKey :=
    { state with
      connection := { state.connection with sendList := sendList } }
  have dropped : Carried state
      (found (dropRemoved state.packages state.connection.sendList)) := by
    refine ⟨fun packageId loose => ?_, id, rfl⟩
    refine ⟨loose.registered, loose.outgoing, ?_, loose.notPending,
      loose.notSecure⟩
    intro sending
    exact loose.notSending (mem_dropRemoved loose.registered sending)
  unfold Action.after onWritable
  dsimp only
  split
  · exact .of_carried dropped
  · next packageId rest waiting =>
      split
      · exact .of_carried dropped
      · exact .of_carried dropped
      · rw [waiting] at dropped
        let sent := (found rest).removePackage packageId
        have removed : Carried (found (packageId :: rest)) sent := by
          refine ⟨fun other loose => ?_, id, rfl⟩
          obtain ⟨still, different⟩ := loose.of_removePackage
          refine ⟨still.registered, still.outgoing, ?_, still.notPending,
            still.notSecure⟩
          intro sending
          rcases List.mem_cons.mp sending with same | later
          · exact different same
          · exact still.notSending later
        split
        · next last =>
            have waited : NoneWait state :=
              noneWait last.2 rfl ⟨packageId, last.1 ▸ waiting⟩
            refine .after_carried (dropped.trans removed)
              (destroy_settled fun other registered => ?_)
            apply waited other
            exact (PackageManager.registered_of_removePackage registered).2
        · exact .of_carried (dropped.trans removed)

theorem packages_record (state : ConnectionState PrivateKey)
    (packageId : Int) : (state.record packageId).packages = state.packages := by
  unfold record
  split <;> rfl

/-- A package of the framework that the socket takes at once is gone. -/
theorem registered_of_sendControlPackage {command : Int}
    {content : List UInt8} (idle : state.connection.sendList = [])
    (whole : socket state.packages.nextId = .whole) {other : Int}
    (registered : ((sendControlPackage socket command content
      state).2.findPackage other).isSome = true) :
    (state.findPackage other).isSome = true := by
  have sent : (sendControlPackage socket command content state).2 =
      ((state.register (controlPackage command content)).record
        state.packages.nextId).removePackage state.packages.nextId := by
    have empty :
        (state.register (controlPackage command content)).connection.sendList =
          [] := idle
    unfold sendControlPackage sendRawPackage
    rw [if_neg (not_not.mpr empty), whole]
  rw [sent] at registered
  obtain ⟨different, still⟩ :=
    PackageManager.registered_of_removePackage registered
  rw [packages_record] at still
  have found : (state.register (controlPackage command content)).findPackage
      other = state.findPackage other :=
    Table.lookup_insert_of_ne _ _ different.symm
  rw [← found]
  exact still

theorem processCheckPackageVersion_settled
    (accepts : ∀ packageId, socket packageId ≠ .thrown) {command : Int}
    (noneWait : (state.connection.sendList = [] ∧
        (command ≠ ntfInvalidVersion →
          socket state.packages.nextId = .whole)) → NoneWait state) :
    Settled state
      ((processCheckPackageVersion socket command).after state) := by
  unfold processCheckPackageVersion
  split
  · next notify =>
      let registered := state.register (controlPackage ntfInvalidVersion [])
      have present : registered.findPackage state.packages.nextId =
          some (controlPackage ntfInvalidVersion []) :=
        findPackage_register_self _ _
      have sent := sendRawPackage_sent socket present
      obtain ⟨normal, carried⟩ := @sendControlPackage_carried _ socket state
        (accepts _) ntfInvalidVersion []
      rw [Action.after_bind_of_ok normal]
      refine .after_carried carried (close_settled ?_)
      intro idle
      have whole : state.connection.sendList = [] ∧
          socket state.packages.nextId = .whole := by
        rcases sent.ended with ⟨-, empty, -⟩ | ⟨-, -, thrown⟩
        · exact empty.mp idle
        · exact absurd thrown (accepts _)
      have waited := noneWait ⟨whole.1, fun _ => whole.2⟩
      intro other remains
      have before := registered_of_sendControlPackage whole.1 whole.2 remains
      obtain ⟨sendList, raw, connection⟩ :=
        @connection_sendControlPackage _ socket state ntfInvalidVersion []
      rw [pendings, securePendings, connection]
      exact waited other before
  · next silent =>
      exact close_settled fun idle =>
        noneWait ⟨idle, fun notify => absurd notify silent⟩

end Ends

/-! ## The beginning of a connection -/

section Beginnings

variable {socket : Int → SendResult} {state : ConnectionState PrivateKey}

theorem createSecureConn_loose
    (accepts : ∀ packageId, socket packageId ≠ .thrown)
    (plain : state.connection.secureConn = none)
    (keyPair : RsaKeyPair PrivateKey) :
    ∃ later, createSecureConn socket keyPair state = (.ok (), later) ∧
      (∀ packageId, Loose later packageId → Loose state packageId) ∧
      later.connection.destroyed = state.connection.destroyed := by
  obtain ⟨normal, carried⟩ := @sendControlPackage_carried _ socket state
    (accepts _) reqStartCrypto keyPair.publicKey
  obtain ⟨sendList, raw, connection⟩ := @connection_sendControlPackage _ socket
    state reqStartCrypto keyPair.publicKey
  let sent := (sendControlPackage socket reqStartCrypto keyPair.publicKey
    state).2
  have ran : sendControlPackage socket reqStartCrypto keyPair.publicKey state =
      (.ok (), sent) := Prod.ext normal rfl
  refine ⟨sent.setSecureConn
    { state := .starting, privateKey := some keyPair.privateKey
      aesKey := List.replicate 32 0, pendingList := [] }, ?_, ?_,
    carried.destroyed⟩
  · rw [createSecureConn, Action.bind_apply, ran]
    rfl
  · intro packageId loose
    apply carried.loose packageId
    refine ⟨loose.registered, loose.outgoing, loose.notSending,
      loose.notPending, ?_⟩
    rw [securePendings, connection, plain]
    exact List.not_mem_nil

theorem openPassive_loose (accepts : ∀ packageId, socket packageId ≠ .thrown)
    (plain : state.connection.secureConn = none) (setting : SecuritySetting)
    (keyPair : RsaKeyPair PrivateKey) :
    (∀ packageId,
      Loose ((openPassive socket setting keyPair).after state) packageId →
        Loose state packageId) ∧
      ((openPassive socket setting keyPair).after state).connection.isOpening =
        false ∧
      ((openPassive socket setting keyPair).after state).connection.destroyed =
        state.connection.destroyed := by
  obtain ⟨normal, carried⟩ := @sendControlPackage_carried _ socket state
    (accepts _) ntfSecuritySetting [setting.toByte]
  obtain ⟨sendList, raw, connection⟩ := @connection_sendControlPackage _ socket
    state ntfSecuritySetting [setting.toByte]
  have stillPlain : (sendControlPackage socket ntfSecuritySetting
      [setting.toByte] state).2.connection.secureConn = none := by
    rw [connection]
    exact plain
  rw [openPassive, Action.after_bind_of_ok normal]
  split
  · obtain ⟨later, ran, loose, destroyed⟩ :=
      createSecureConn_loose accepts stillPlain keyPair
    rw [Action.after_bind_of_ok (congrArg Prod.fst ran), ran]
    refine ⟨?_, rfl, destroyed.trans carried.destroyed⟩
    intro packageId remains
    apply carried.loose packageId
    exact loose packageId ⟨remains.registered, remains.outgoing,
      remains.notSending, remains.notPending, remains.notSecure⟩
  · refine ⟨?_, rfl, carried.destroyed⟩
    intro packageId remains
    exact carried.loose packageId ⟨remains.registered, remains.outgoing,
      remains.notSending, remains.notPending, remains.notSecure⟩

/-- No call of `sendBytes` throws while the connection is created. -/
def Creation.accepts : Creation PrivateKey → Prop
  | .active => True
  | .passive _ _ socket => ∀ packageId, socket packageId ≠ .thrown

/-- A new connection lets no package go. -/
theorem create_loose (packages : PackageManager) (inQueue : List Int)
    {creation : Creation PrivateKey} (accepts : creation.accepts) :
    (∀ packageId, Loose (create packages inQueue creation) packageId →
      (packages.findPackage packageId).isSome = true ∧
        packageId ∉ inQueue) ∧
      Unopened (create packages inQueue creation).connection ∧
      (create packages inQueue creation).connection.destroyed = false := by
  cases creation with
  | active =>
      exact ⟨fun packageId loose => ⟨loose.registered, loose.outgoing⟩,
        fun _ => rfl, rfl⟩
  | passive setting keyPair socket =>
      cases setting with
      | none =>
          exact ⟨fun packageId loose => ⟨loose.registered, loose.outgoing⟩,
            fun _ => rfl, rfl⟩
      | some setting =>
          obtain ⟨loose, opened, destroyed⟩ := @openPassive_loose _ socket
            (ofManagers .passiveOpen packages inQueue) accepts rfl setting
            keyPair
          refine ⟨?_, ?_, destroyed⟩
          · intro packageId remains
            have before := loose packageId remains
            exact ⟨before.registered, before.outgoing⟩
          · intro isOpening
            exact absurd (opened.symm.trans isOpening) Bool.false_ne_true

end Beginnings

end ConnectionState

end Details
end Foundation
end Spaceless
