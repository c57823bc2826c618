import Spaceless.Foundation.Opening

/-!
# Passing packages on

Whether a connection is plain or its crypto has started, once it holds nothing
back a package goes to `send_raw_package`, encrypted under the key if there is
one.  Working off a list passes its packages one after another, unless the
socket throws before the last of them.
-/

namespace Spaceless
namespace Foundation
namespace Details

open Crypto Logic

/-- A package as a connection with the key passes it on. -/
def CryptoLibrary.encipher {PublicKey PrivateKey : Type}
    (crypto : CryptoLibrary PublicKey PrivateKey)
    (key : Option (List UInt8)) (package : PackageEntry) : PackageEntry :=
  match key with
  | none => package
  | some aesKey =>
      Foundation.SecureConnection.sendPackage (crypto.encryptor aesKey) package

/-- A connection that is open, without a key or with one. -/
structure Ready {PrivateKey : Type} (key : Option (List UInt8))
    (connection : NetworkConnectionImpl PrivateKey) : Prop where
  opened : connection.isOpening = false
  staysOpen : connection.isClosing = false
  keyed : match key with
    | none => connection.secureConn = none
    | some aesKey => ∃ secureConn, connection.secureConn = some secureConn ∧
        secureConn.state = .started ∧ secureConn.aesKey = aesKey

theorem Ready.congr {PrivateKey : Type} {key : Option (List UInt8)}
    {before after : NetworkConnectionImpl PrivateKey}
    (ready : Ready key before)
    (secureConn : after.secureConn = before.secureConn)
    (isOpening : after.isOpening = before.isOpening)
    (isClosing : after.isClosing = before.isClosing) : Ready key after := by
  refine ⟨isOpening.trans ready.opened, isClosing.trans ready.staysOpen, ?_⟩
  rw [secureConn]
  exact ready.keyed

/-- A call of `sendBytes` throws for a package that others follow, when the
packages are passed to a socket before which none waits. -/
def Interrupted (socket : Int → SendResult) : List Int → Prop
  | packageId :: next :: rest =>
      socket packageId = .thrown ∨
        socket packageId = .whole ∧ Interrupted socket (next :: rest)
  | _ => False

theorem interrupted_cons_iff {socket : Int → SendResult} {packageId : Int}
    {rest : List Int} :
    Interrupted socket (packageId :: rest) ↔
      rest ≠ [] ∧ (socket packageId = .thrown ∨
        socket packageId = .whole ∧ Interrupted socket rest) := by
  cases rest with
  | nil => simp [Interrupted]
  | cons next rest => simp [Interrupted]

namespace ConnectionState

variable {PublicKey PrivateKey : Type}

/-- The state after packages were passed to `send_raw_package`, with what
their passing leaves alone. -/
structure Passed (calls : List (Int × PackageEntry))
    (before after : ConnectionState PrivateKey) : Prop where
  raw : after.connection.raw = before.connection.raw ++ calls
  sendList : ∀ packageId ∈ after.connection.sendList,
    packageId ∈ before.connection.sendList ∨
      packageId ∈ calls.map Prod.fst
  findPackage : ∀ packageId, packageId ∉ calls.map Prod.fst →
    after.findPackage packageId = before.findPackage packageId
  nextId : after.packages.nextId = before.packages.nextId
  inQueue : after.inQueue = before.inQueue
  openType : after.connection.openType = before.connection.openType
  destroyed : after.connection.destroyed = before.connection.destroyed

namespace Passed

variable {first second : List (Int × PackageEntry)}
  {before middle after : ConnectionState PrivateKey}

theorem refl (state : ConnectionState PrivateKey) : Passed [] state state :=
  ⟨(List.append_nil _).symm, fun _ => Or.inl, fun _ _ => rfl, rfl, rfl, rfl,
    rfl⟩

theorem trans (passed : Passed first before middle)
    (more : Passed second middle after) :
    Passed (first ++ second) before after where
  raw := by
    rw [more.raw, passed.raw, List.append_assoc]
  sendList := by
    intro packageId waits
    rw [List.map_append, List.mem_append]
    rcases more.sendList packageId waits with earlier | new
    · exact (passed.sendList packageId earlier).imp_right Or.inl
    · exact Or.inr (Or.inr new)
  findPackage := by
    intro packageId other
    rw [List.map_append, List.mem_append, not_or] at other
    rw [more.findPackage packageId other.2,
      passed.findPackage packageId other.1]
  nextId := more.nextId.trans passed.nextId
  inQueue := more.inQueue.trans passed.inQueue
  openType := more.openType.trans passed.openType
  destroyed := more.destroyed.trans passed.destroyed

end Passed

/-! ## One package -/

theorem findPackage_removePackage_of_ne (state : ConnectionState PrivateKey)
    {packageId other : Int} (different : packageId ≠ other) :
    (state.removePackage packageId).findPackage other =
      state.findPackage other :=
  Table.lookup_erase_of_ne _ different

theorem findPackage_register_of_lt (state : ConnectionState PrivateKey)
    (package : PackageEntry) {other : Int}
    (older : other < state.packages.nextId) :
    (state.register package).findPackage other = state.findPackage other :=
  Table.lookup_insert_of_ne _ _ (by omega)

theorem nextId_lt_register (state : ConnectionState PrivateKey)
    (package : PackageEntry) :
    state.packages.nextId < (state.register package).packages.nextId :=
  Int.lt_add_one_of_le (Int.le_refl _)

@[simp] theorem findPackage_register_self (state : ConnectionState PrivateKey)
    (package : PackageEntry) :
    (state.register package).findPackage state.packages.nextId =
      some package :=
  Table.lookup_insert_self _ _ _

/-- What a call of `send_raw_package` does, and when it throws. -/
structure RawSent (socket : Int → SendResult) (call : Int × PackageEntry)
    (before : ConnectionState PrivateKey)
    (outcome : Except ConnectionFault Unit × ConnectionState PrivateKey) :
    Prop where
  passed : Passed [call] before outcome.2
  secureConn : outcome.2.connection.secureConn = before.connection.secureConn
  pendingList :
    outcome.2.connection.pendingList = before.connection.pendingList
  isOpening : outcome.2.connection.isOpening = before.connection.isOpening
  isClosing : outcome.2.connection.isClosing = before.connection.isClosing
  ended : outcome.1 = .ok () ∧
      ((outcome.2.connection.sendList = [] ↔
          before.connection.sendList = [] ∧ socket call.1 = .whole) ∧
        ¬(before.connection.sendList = [] ∧ socket call.1 = .thrown)) ∨
    outcome.1 = .error .socket ∧
      before.connection.sendList = [] ∧ socket call.1 = .thrown

theorem sendRawPackage_sent (socket : Int → SendResult)
    {state : ConnectionState PrivateKey} {packageId : Int}
    {package : PackageEntry}
    (found : state.findPackage packageId = some package) :
    RawSent socket (packageId, package) state
      (sendRawPackage socket packageId state) := by
  have recorded : state.record packageId =
      { state with connection := { state.connection with
        raw := state.connection.raw ++ [(packageId, package)] } } := by
    unfold record
    rw [found]
  have pushed : Passed [(packageId, package)] state
      ((state.record packageId).pushSendList packageId) := by
    rw [recorded]
    refine ⟨rfl, ?_, fun _ _ => rfl, rfl, rfl, rfl, rfl⟩
    intro other waits
    simpa [pushSendList] using waits
  unfold sendRawPackage
  by_cases waiting : state.connection.sendList = []
  · rw [if_neg (not_not.mpr waiting)]
    cases accepts : socket packageId with
    | whole =>
        refine ⟨⟨?_, ?_, ?_, ?_, ?_, ?_, ?_⟩, ?_, ?_, ?_, ?_, Or.inl ?_⟩ <;>
          rw [recorded] <;> try rfl
        · exact fun _ => Or.inl
        · intro other different
          refine findPackage_removePackage_of_ne _ ?_
          rintro rfl
          simp at different
        · simp [removePackage, waiting, accepts]
    | part =>
        refine ⟨pushed, ?_, ?_, ?_, ?_, Or.inl ?_⟩ <;>
          rw [recorded] <;> try rfl
        simp [pushSendList, accepts]
    | thrown =>
        refine ⟨⟨?_, ?_, ?_, ?_, ?_, ?_, ?_⟩, ?_, ?_, ?_, ?_, Or.inr ?_⟩ <;>
          rw [recorded] <;> try rfl
        · exact fun _ => Or.inl
        · exact fun _ _ => rfl
        · exact ⟨rfl, waiting, accepts⟩
  · rw [if_pos waiting]
    refine ⟨pushed, ?_, ?_, ?_, ?_, Or.inl ?_⟩ <;>
      rw [recorded] <;> try rfl
    simp [pushSendList, waiting]

/-- A package is encrypted in place before it is passed on. -/
def encipherAt (crypto : CryptoLibrary PublicKey PrivateKey)
    (key : Option (List UInt8)) (packageId : Int)
    (state : ConnectionState PrivateKey) : ConnectionState PrivateKey :=
  match key with
  | none => state
  | some aesKey =>
      { state with
        packages :=
          state.packages.encrypt (crypto.encryptor aesKey) packageId }

section Ready

variable {crypto : CryptoLibrary PublicKey PrivateKey}
  {socket : Int → SendResult} {key : Option (List UInt8)}
  {state : ConnectionState PrivateKey} {packageId : Int}
  {package : PackageEntry}

theorem findPackage_encipherAt_self
    (found : state.findPackage packageId = some package) :
    (state.encipherAt crypto key packageId).findPackage packageId =
      some (crypto.encipher key package) := by
  cases key with
  | none => exact found
  | some aesKey =>
      simp only [encipherAt, findPackage, PackageManager.encrypt] at found ⊢
      rw [found]
      exact Table.lookup_insert_self _ _ _

theorem findPackage_encipherAt_of_ne {other : Int}
    (different : packageId ≠ other) :
    (state.encipherAt crypto key packageId).findPackage other =
      state.findPackage other := by
  cases key with
  | none => rfl
  | some aesKey =>
      simp only [encipherAt, findPackage, PackageManager.encrypt]
      split
      · rfl
      · exact Table.lookup_insert_of_ne _ _ different

theorem nextId_encipherAt :
    (state.encipherAt crypto key packageId).packages.nextId =
      state.packages.nextId := by
  cases key with
  | none => rfl
  | some aesKey =>
      simp only [encipherAt, PackageManager.encrypt]
      split <;> rfl

@[simp] theorem connection_encipherAt :
    (state.encipherAt crypto key packageId).connection = state.connection := by
  cases key <;> rfl

@[simp] theorem inQueue_encipherAt :
    (state.encipherAt crypto key packageId).inQueue = state.inQueue := by
  cases key <;> rfl

/-- An open connection passes a package on. -/
theorem sendPackage_of_ready (ready : Ready key state.connection) :
    sendPackage crypto socket packageId state =
      sendRawPackage socket packageId
        (state.encipherAt crypto key packageId) := by
  have opened := ready.opened
  have keyed := ready.keyed
  unfold sendPackage
  rw [if_neg (by simp [ready.staysOpen])]
  cases key with
  | none =>
      rw [keyed]
      simp [opened, encipherAt]
  | some aesKey =>
      obtain ⟨secureConn, present, started, rfl⟩ := keyed
      simp only [sendSecurePackage, present, started, encipherAt]

theorem sendSecurePackage_of_ready {aesKey : List UInt8}
    (ready : Ready (some aesKey) state.connection) :
    sendSecurePackage crypto socket packageId state =
      sendPackage crypto socket packageId state := by
  obtain ⟨secureConn, present, -⟩ := ready.keyed
  unfold sendPackage
  rw [if_neg (by simp [ready.staysOpen]), present]

/-- What sending a package over an open connection does. -/
theorem sendPackage_sent (ready : Ready key state.connection)
    (found : state.findPackage packageId = some package) :
    RawSent socket (packageId, crypto.encipher key package) state
      (sendPackage crypto socket packageId state) := by
  rw [sendPackage_of_ready ready]
  have encrypted : (state.encipherAt crypto key packageId).findPackage
      packageId = some (crypto.encipher key package) :=
    findPackage_encipherAt_self found
  have sent := sendRawPackage_sent socket encrypted
  have passed := sent.passed
  refine ⟨⟨?_, ?_, ?_, ?_, ?_, ?_, ?_⟩, ?_, ?_, ?_, ?_, ?_⟩
  · simpa using passed.raw
  · simpa using passed.sendList
  · intro other different
    rw [passed.findPackage other different, findPackage_encipherAt_of_ne]
    rintro rfl
    simp at different
  · rw [passed.nextId, nextId_encipherAt]
  · simpa using passed.inQueue
  · simpa using passed.openType
  · simpa using passed.destroyed
  · simpa using sent.secureConn
  · simpa using sent.pendingList
  · simpa using sent.isOpening
  · simpa using sent.isClosing
  · simpa using sent.ended

end Ready

/-! ## A list of packages -/

/-- Packages as they are passed on. -/
def enciphered (crypto : CryptoLibrary PublicKey PrivateKey)
    (key : Option (List UInt8)) (calls : List (Int × PackageEntry)) :
    List (Int × PackageEntry) :=
  calls.map fun call => (call.1, crypto.encipher key call.2)

@[simp] theorem map_fst_enciphered
    (crypto : CryptoLibrary PublicKey PrivateKey)
    (key : Option (List UInt8)) (calls : List (Int × PackageEntry)) :
    (enciphered crypto key calls).map Prod.fst = calls.map Prod.fst := by
  simp [enciphered]

/-- A list of waiting packages, and how the loop shortens it. -/
structure Queue (key : Option (List UInt8))
    (waits : ConnectionState PrivateKey → List Int)
    (pop : List Int → ConnectionState PrivateKey →
      ConnectionState PrivateKey) : Prop where
  waits_pop : ∀ rest state, Ready key state.connection →
    waits (pop rest state) = rest
  waits_congr : ∀ before after : ConnectionState PrivateKey,
    after.connection.secureConn = before.connection.secureConn →
    after.connection.pendingList = before.connection.pendingList →
    waits after = waits before
  ready_pop : ∀ rest state, Ready key state.connection →
    Ready key (pop rest state).connection
  passed_pop : ∀ rest state, Passed [] state (pop rest state)
  sendList_pop : ∀ rest state,
    (pop rest state).connection.sendList = state.connection.sendList

section Flush

variable {crypto : CryptoLibrary PublicKey PrivateKey}
  {socket : Int → SendResult} {key : Option (List UInt8)}
  {waits : ConnectionState PrivateKey → List Int}
  {pop : List Int → ConnectionState PrivateKey → ConnectionState PrivateKey}
  {send : Int → Operation PrivateKey Unit}

/-- What working off a list leaves: the packages that were passed on, and
those that still wait after an exception. -/
structure Flushed (crypto : CryptoLibrary PublicKey PrivateKey)
    (key : Option (List UInt8))
    (waits : ConnectionState PrivateKey → List Int)
    (calls done rest : List (Int × PackageEntry))
    (before after : ConnectionState PrivateKey) : Prop where
  split : calls = done ++ rest
  passed : Passed (enciphered crypto key done) before after
  ready : Ready key after.connection
  waiting : waits after = rest.map Prod.fst

theorem flush_cons (sends : ∀ packageId state,
      Ready key state.connection →
      send packageId state = sendPackage crypto socket packageId state)
    {packageId : Int} {rest : List Int} {package : PackageEntry}
    {state : ConnectionState PrivateKey}
    (ready : Ready key (pop rest state).connection)
    (found : (pop rest state).findPackage packageId = some package) :
    flush pop send (packageId :: rest) state =
      (sendPackage crypto socket packageId >>= fun _ =>
        flush pop send rest) (pop rest state) := by
  simp only [flush, found]
  rw [Action.bind_apply, Action.bind_apply, sends packageId _ ready]

/-- Working off a list passes all its packages on unless it is
interrupted. -/
theorem flush_flushed (queue : Queue key waits pop)
    (sends : ∀ packageId state, Ready key state.connection →
      send packageId state = sendPackage crypto socket packageId state)
    {calls : List (Int × PackageEntry)}
    {state : ConnectionState PrivateKey}
    (ready : Ready key state.connection)
    (waiting : waits state = calls.map Prod.fst)
    (stored : ∀ call ∈ calls, state.findPackage call.1 = some call.2)
    (nodup : (calls.map Prod.fst).Nodup) :
    ∃ done rest, Flushed crypto key waits calls done rest state
        ((flush pop send (calls.map Prod.fst)).after state) ∧
      (rest = [] ↔ ¬(state.connection.sendList = [] ∧
        Interrupted socket (calls.map Prod.fst))) := by
  induction calls generalizing state with
  | nil =>
      refine ⟨[], [], ⟨rfl, .refl state, ready, waiting⟩, ?_⟩
      simp [Interrupted]
  | cons call calls inductionHypothesis =>
      obtain ⟨packageId, package⟩ := call
      obtain ⟨notLater, nodupLater⟩ := List.nodup_cons.mp nodup
      let popped := pop (calls.map Prod.fst) state
      have readyPopped : Ready key popped.connection :=
        queue.ready_pop _ state ready
      have passedPop : Passed [] state popped := queue.passed_pop _ state
      have sendListPop : popped.connection.sendList =
          state.connection.sendList := queue.sendList_pop _ state
      have found : popped.findPackage packageId = some package := by
        rw [passedPop.findPackage packageId (by simp)]
        exact stored (packageId, package) List.mem_cons_self
      have sent : RawSent socket (packageId, crypto.encipher key package)
          popped (sendPackage crypto socket packageId popped) :=
        sendPackage_sent readyPopped found
      have waitsSent : waits (sendPackage crypto socket packageId popped).2 =
          calls.map Prod.fst := by
        rw [queue.waits_congr _ _ sent.secureConn sent.pendingList]
        exact queue.waits_pop _ state ready
      have readySent : Ready key
          (sendPackage crypto socket packageId popped).2.connection :=
        readyPopped.congr sent.secureConn sent.isOpening sent.isClosing
      have passed := passedPop.trans sent.passed
      have storedSent : ∀ call ∈ calls,
          (sendPackage crypto socket packageId popped).2.findPackage call.1 =
            some call.2 := by
        intro call member
        rw [passed.findPackage call.1 ?_]
        · exact stored call (List.mem_cons_of_mem _ member)
        · rw [List.nil_append, List.map_cons, List.map_nil,
            List.mem_singleton]
          rintro rfl
          exact notLater (List.mem_map.mpr ⟨call, member, rfl⟩)
      have unfolded := flush_cons sends readyPopped found
      have ended := sent.ended
      rw [sendListPop] at ended
      rw [List.map_cons, Action.after, unfolded, Action.bind_apply]
      change Passed [(packageId, crypto.encipher key package)] _ _ at passed
      generalize sendPackage crypto socket packageId popped = outcome at *
      obtain ⟨result, later⟩ := outcome
      rcases ended with ⟨rfl, idle, kept⟩ | ⟨rfl, throws⟩
      · obtain ⟨done, rest, flushed, whole⟩ :=
          inductionHypothesis readySent waitsSent storedSent nodupLater
        refine ⟨(packageId, package) :: done, rest, ⟨?_, ?_, ?_, ?_⟩, ?_⟩
        · rw [flushed.split, List.cons_append]
        · exact passed.trans flushed.passed
        · exact flushed.ready
        · exact flushed.waiting
        · rw [whole, idle, interrupted_cons_iff]
          cases calls with
          | nil => simp [Interrupted]
          | cons next calls =>
              simp only [List.map_cons, ne_eq, reduceCtorEq,
                not_false_eq_true, true_and]
              tauto
      · refine ⟨[(packageId, package)], calls, ⟨rfl, passed, readySent,
          waitsSent⟩, ?_⟩
        rw [interrupted_cons_iff]
        simp [throws]

end Flush

/-! ## The lists of a connection -/

/-- The packages that wait for the opening. -/
def pendings (state : ConnectionState PrivateKey) : List Int :=
  state.connection.pendingList

/-- The packages that wait for the crypto start. -/
def securePendings (state : ConnectionState PrivateKey) : List Int :=
  match state.connection.secureConn with
  | none => []
  | some secureConn => secureConn.pendingList

theorem queue_pendingList (key : Option (List UInt8)) :
    Queue key (@pendings PrivateKey) setPendingList where
  waits_pop _ _ _ := rfl
  waits_congr _ _ _ same := same
  ready_pop _ _ ready := ready.congr rfl rfl rfl
  passed_pop _ _ :=
    ⟨(List.append_nil _).symm, fun _ => Or.inl, fun _ _ => rfl, rfl, rfl, rfl,
      rfl⟩
  sendList_pop _ _ := rfl

theorem queue_securePendingList (aesKey : List UInt8) :
    Queue (some aesKey) (@securePendings PrivateKey)
      setSecurePendingList where
  waits_pop rest state ready := by
    obtain ⟨secureConn, present, -⟩ := ready.keyed
    simp [securePendings, setSecurePendingList, present]
  waits_congr before after same _ := by
    rw [securePendings, securePendings, same]
  ready_pop rest state ready := by
    obtain ⟨secureConn, present, started, keyed⟩ := ready.keyed
    refine ⟨ready.opened, ready.staysOpen, ?_⟩
    exact ⟨{ secureConn with pendingList := rest },
      by simp [setSecurePendingList, present], started, keyed⟩
  passed_pop _ _ :=
    ⟨(List.append_nil _).symm, fun _ => Or.inl, fun _ _ => rfl, rfl, rfl, rfl,
      rfl⟩
  sendList_pop _ _ := rfl

section Lists

variable {crypto : CryptoLibrary PublicKey PrivateKey}
  {socket : Int → SendResult} {state : ConnectionState PrivateKey}

/-- A package waits for the opening. -/
theorem sendPackage_of_opening {packageId : Int}
    (staysOpen : state.connection.isClosing = false)
    (opening : state.connection.isOpening = true)
    (plain : state.connection.secureConn = none) :
    sendPackage crypto socket packageId state =
      (.ok (), setPendingList (state.connection.pendingList ++ [packageId])
        state) := by
  obtain ⟨packages, inQueue, connection⟩ := state
  cases connection
  cases staysOpen
  cases opening
  cases plain
  rfl

/-- A package waits for the crypto start. -/
theorem sendPackage_of_starting {secureConn : SecureConnection PrivateKey}
    {packageId : Int} (staysOpen : state.connection.isClosing = false)
    (present : state.connection.secureConn = some secureConn)
    (starting : secureConn.state = .starting) :
    sendPackage crypto socket packageId state =
      (.ok (), state.setSecureConn { secureConn with
        pendingList := secureConn.pendingList ++ [packageId] }) := by
  unfold sendPackage
  rw [if_neg (by simp [staysOpen])]
  split
  · rw [sendSecurePackage, present]
    cases secureConn
    cases starting
    rfl
  · simp_all

/-- What waited for the opening waits for the crypto start. -/
theorem flush_starting {secureConn : SecureConnection PrivateKey}
    (staysOpen : state.connection.isClosing = false)
    (present : state.connection.secureConn = some secureConn)
    (starting : secureConn.state = .starting) {packageIds : List Int}
    (waiting : state.connection.pendingList = packageIds)
    (stored : ∀ packageId ∈ packageIds,
      (state.findPackage packageId).isSome = true) :
    flush setPendingList (sendPackage crypto socket) packageIds state =
      (.ok (), { state with connection := { state.connection with
        pendingList := []
        secureConn := some { secureConn with
          pendingList := secureConn.pendingList ++ packageIds } } }) := by
  induction packageIds generalizing state secureConn with
  | nil =>
      have unchanged : { state.connection with
          pendingList := [], secureConn := some secureConn } =
            state.connection := by
        rw [← waiting, ← present]
      rw [List.append_nil, unchanged]
      rfl
  | cons packageId rest inductionHypothesis =>
      obtain ⟨package, found⟩ := Option.isSome_iff_exists.mp
        (stored packageId List.mem_cons_self)
      have foundLater : (setPendingList rest state).findPackage packageId =
          some package := found
      simp only [flush, foundLater]
      have sends : sendPackage crypto socket packageId
          (setPendingList rest state) =
            (.ok (), (setPendingList rest state).setSecureConn
              { secureConn with
                pendingList := secureConn.pendingList ++ [packageId] }) := by
        simp [sendPackage, setPendingList, staysOpen, present,
          sendSecurePackage, starting]
      rw [Action.bind_apply, sends]
      dsimp only
      have later := @inductionHypothesis
        ((setPendingList rest state).setSecureConn
          { secureConn with
            pendingList := secureConn.pendingList ++ [packageId] })
        { secureConn with
          pendingList := secureConn.pendingList ++ [packageId] }
        staysOpen rfl starting rfl
        fun other member => stored other (List.mem_cons_of_mem _ member)
      rw [later]
      simp [setPendingList, setSecureConn]

end Lists

/-! ## A received package -/

section Received

variable {crypto : CryptoLibrary PublicKey PrivateKey}
  {socket : Int → SendResult} {random : Random} {buffer : PackageBuffer}

/-- A setting that does not belong here closes the connection. -/
theorem onNtfSecuritySetting_of_refused {state : ConnectionState PrivateKey}
    (refused : ¬(state.connection.openType = .activeOpen ∧
      state.connection.isOpening = true ∧
        1 ≤ sizeOfInt buffer.header.contentLength)) :
    onNtfSecuritySetting crypto socket buffer state =
      (.ok (), state.close) := by
  unfold onNtfSecuritySetting
  by_cases passive : state.connection.openType = .passiveOpen
  · exact if_pos passive
  · rw [if_neg passive]
    by_cases opened : state.connection.isOpening = false
    · exact if_pos opened
    · rw [if_neg opened]
      apply if_pos
      by_contra whole
      refine refused ⟨?_, Bool.of_not_eq_false opened, by omega⟩
      cases openType : state.connection.openType with
      | activeOpen => rfl
      | passiveOpen => exact absurd openType passive

/-- What a connection does with a package while its crypto starts. -/
theorem receive_of_starting {state : ConnectionState PrivateKey}
    {secureConn : SecureConnection PrivateKey}
    (other : buffer.header.command ≠ ntfSecuritySetting)
    (opened : state.connection.isOpening = false)
    (present : state.connection.secureConn = some secureConn)
    (starting : secureConn.state = .starting) :
    onReceiveCompletePackage crypto socket random buffer state =
      if state.connection.openType = .passiveOpen ∧
          buffer.header.command = rspStartCrypto then
        onRspStartCrypto crypto socket secureConn (content buffer) state
      else if state.connection.openType = .activeOpen ∧
          buffer.header.command = reqStartCrypto then
        onReqStartCrypto crypto socket random secureConn (content buffer)
          state
      else (.ok (), state) := by
  unfold onReceiveCompletePackage onReceiveSecurePackage
  rw [if_neg other, if_neg (by simp [opened]), present]
  dsimp only
  rw [starting]

end Received

end ConnectionState

end Details
end Foundation
end Spaceless
