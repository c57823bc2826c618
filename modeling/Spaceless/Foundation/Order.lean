import Spaceless.Foundation.Passing
import Spaceless.Logic.Machine

/-!
# The order of packages around the opening

However calls of `send_package` and received packages follow each other, the
packages of the application wait until the opening and the crypto start are
complete and then reach `send_raw_package` in order.  An exception of the
socket while a list of waiting packages is worked off breaks this: the rest of
the list stays behind, and later packages overtake it.
-/

namespace Spaceless
namespace Foundation
namespace Details

open Crypto Logic ConnectionState

/-- What happens to a connection, with what the socket and the generator of
random numbers do meanwhile. -/
inductive OpeningEvent
  | sendPackage (package : PackageEntry) (socket : Int → SendResult)
  | receive (buffer : PackageBuffer) (random : Random)
      (socket : Int → SendResult)
  | onWritable (result : SendResult)

/-- A connection with the packages that were given to `send_package`, and
what has happened so far. -/
structure Opening (PrivateKey : Type) where
  state : ConnectionState PrivateKey
  given : List (Int × PackageEntry)
  history : List OpeningEvent

namespace Opening

variable {PublicKey PrivateKey : Type}

/-- The connection is neither closing nor destroyed. -/
def IsOpen (opening : Opening PrivateKey) : Prop :=
  opening.state.connection.isClosing = false ∧
    opening.state.connection.destroyed = false

instance (opening : Opening PrivateKey) : Decidable opening.IsOpen :=
  inferInstanceAs (Decidable (_ ∧ _))

variable (crypto : CryptoLibrary PublicKey PrivateKey)

/-- What an event does.  A package of the application is registered and given
to the connection. -/
def react (opening : Opening PrivateKey) :
    OpeningEvent → ConnectionState PrivateKey
  | .sendPackage package socket =>
      (ConnectionState.sendPackage crypto socket
        opening.state.packages.nextId).after (opening.state.register package)
  | .receive buffer random socket =>
      (onReceiveCompletePackage crypto socket random buffer).after
        opening.state
  | .onWritable result =>
      (ConnectionState.onWritable result).after opening.state

/-- The packages that were given after the event. -/
def givenAfter (opening : Opening PrivateKey) :
    OpeningEvent → List (Int × PackageEntry)
  | .sendPackage package _ =>
      opening.given ++ [(opening.state.packages.nextId, package)]
  | _ => opening.given

/-- The connection after an event. -/
def advance (opening : Opening PrivateKey) (event : OpeningEvent) :
    Opening PrivateKey where
  state := opening.react crypto event
  given := opening.givenAfter event
  history := opening.history ++ [event]

/-- One event at a connection that is not closing. -/
def step (opening : Opening PrivateKey) (event : OpeningEvent) :
    Option (Opening PrivateKey) :=
  if opening.IsOpen then some (opening.advance crypto event) else none

/-- A connection from its creation on. -/
def machine (creation : Creation PrivateKey) :
    Machine (Opening PrivateKey) OpeningEvent where
  start := { state := create .init [] creation, given := [], history := [] }
  step := step crypto

/-- The identifiers of the packages that were given, in order. -/
def givenIds (opening : Opening PrivateKey) : List Int :=
  opening.given.map Prod.fst

/-- The packages of the application that were passed to
`send_raw_package`. -/
def handed (opening : Opening PrivateKey) : List (Int × PackageEntry) :=
  opening.state.connection.raw.filter fun call =>
    call.1 ∈ opening.givenIds

/-- The opening is complete, and the crypto start where there is one. -/
def Opened (connection : NetworkConnectionImpl PrivateKey) : Prop :=
  connection.isOpening = false ∧
    ∀ secureConn, connection.secureConn = some secureConn →
      secureConn.state = .started

end Opening

namespace OpeningEvent

variable {PublicKey PrivateKey : Type}

def IsSecuritySetting : OpeningEvent → Prop
  | .receive buffer _ _ => buffer.header.command = ntfSecuritySetting
  | _ => False

/-- A setting that opens security. -/
def OpensSecurity : OpeningEvent → Prop
  | .receive buffer _ _ =>
      buffer.header.command = ntfSecuritySetting ∧
        buffer.data[headerLen]? = some SecuritySetting.openSecurity.toByte
  | _ => False

theorem isSecuritySetting_of_opensSecurity {event : OpeningEvent}
    (opens : event.OpensSecurity) : event.IsSecuritySetting := by
  cases event with
  | receive buffer random socket => exact opens.1
  | sendPackage | onWritable => exact opens

/-- The package on which a connection sets the AES key: on the passive side
to the key that the peer has encrypted, on the active side to a new one. -/
def SetsAesKey (crypto : CryptoLibrary PublicKey PrivateKey)
    (creation : Creation PrivateKey) (aesKey : List UInt8) :
    OpeningEvent → Prop
  | .receive buffer random _ =>
      match creation with
      | .active =>
          buffer.header.command = reqStartCrypto ∧ aesKey = random.aesKey ∧
            (crypto.loadFromString (content buffer)).isSome = true
      | .passive _ keyPair _ =>
          buffer.header.command = rspStartCrypto ∧
            ∃ plain, crypto.rsaDecrypt (content buffer) keyPair.privateKey =
                some plain ∧
              aesKey = resetAesKey (List.replicate 32 0) plain
  | _ => False

end OpeningEvent

namespace Opening

variable {PublicKey PrivateKey : Type}
  (crypto : CryptoLibrary PublicKey PrivateKey)

/-- Security is open, by the setting of a passive connection or by the one
that an active connection was notified of. -/
def IsSecure (creation : Creation PrivateKey)
    (history : List OpeningEvent) : Prop :=
  (∃ keyPair socket,
      creation = .passive (some .openSecurity) keyPair socket) ∨
    ∃ event ∈ history, event.OpensSecurity

/-- What holds of a connection that is not closing. -/
structure Orderly (creation : Creation PrivateKey)
    (opening : Opening PrivateKey) : Prop where
  once : opening.givenIds.Nodup
  inOrder : opening.handed.map Prod.fst <+: opening.givenIds
  complete : Opened opening.state.connection →
    opening.handed.map Prod.fst = opening.givenIds
  afterSetting : creation = .active →
    (∀ event ∈ opening.history, ¬event.IsSecuritySetting) →
    opening.handed = []
  plain : ¬IsSecure creation opening.history → opening.handed <+: opening.given
  secure : IsSecure creation opening.history → opening.handed ≠ [] →
    ∃ aesKey, (∃ event ∈ opening.history,
        event.SetsAesKey crypto creation aesKey) ∧
      opening.handed <+: enciphered crypto (some aesKey) opening.given

/-- The packages that the event takes from a list and passes on one after
another, while none waits for the socket. -/
inductive Flushes (state : ConnectionState PrivateKey)
    (buffer : PackageBuffer) (random : Random)
    (socket : Int → SendResult) : List Int → Prop
  | setting
      (command : buffer.header.command = ntfSecuritySetting)
      (active : state.connection.openType = .activeOpen)
      (opening : state.connection.isOpening = true)
      (whole : 1 ≤ sizeOfInt buffer.header.contentLength)
      (plain : buffer.data[headerLen]? ≠
        some SecuritySetting.openSecurity.toByte)
      (idle : state.connection.sendList = []) :
      Flushes state buffer random socket state.connection.pendingList
  | rspStartCrypto {secureConn privateKey plain}
      (command : buffer.header.command = rspStartCrypto)
      (passive : state.connection.openType = .passiveOpen)
      (opened : state.connection.isOpening = false)
      (present : state.connection.secureConn = some secureConn)
      (starting : secureConn.state = .starting)
      (stored : secureConn.privateKey = some privateKey)
      (decrypts : crypto.rsaDecrypt (content buffer) privateKey =
        some plain)
      (idle : state.connection.sendList = []) :
      Flushes state buffer random socket secureConn.pendingList
  | reqStartCrypto {secureConn publicKey cipher}
      (command : buffer.header.command = reqStartCrypto)
      (active : state.connection.openType = .activeOpen)
      (opened : state.connection.isOpening = false)
      (present : state.connection.secureConn = some secureConn)
      (starting : secureConn.state = .starting)
      (loads : crypto.loadFromString (content buffer) = some publicKey)
      (encrypts : crypto.rsaEncrypt random.aesKey random.seed publicKey =
        some cipher)
      (idle : state.connection.sendList = [])
      (sent : socket state.packages.nextId = .whole) :
      Flushes state buffer random socket secureConn.pendingList

/-- No call of `sendBytes` throws in the middle of a list that the event works
off. -/
def Uninterrupted (opening : Opening PrivateKey) : OpeningEvent → Prop
  | .receive buffer random socket => ∀ packageIds,
      Flushes crypto opening.state buffer random socket packageIds →
      ¬Interrupted socket packageIds
  | _ => True

/-! ## The stages of an opening -/

/-- The identifiers are in use: those of given packages are different, and the
packages that wait for the socket were passed to `send_raw_package`. -/
structure Books (given : List (Int × PackageEntry))
    (state : ConnectionState PrivateKey) : Prop where
  nodup : (given.map Prod.fst).Nodup
  given_lt : ∀ packageId ∈ given.map Prod.fst,
    packageId < state.packages.nextId
  raw_lt : ∀ packageId ∈ state.connection.raw.map Prod.fst,
    packageId < state.packages.nextId
  sendList : ∀ packageId ∈ state.connection.sendList,
    packageId ∈ state.connection.raw.map Prod.fst

/-- All given packages wait. -/
structure Holding (opening : Opening PrivateKey) : Prop where
  handed : opening.handed = []
  stored : ∀ call ∈ opening.given,
    opening.state.findPackage call.1 = some call.2

/-- Where a secure connection that starts comes from. -/
structure StartOrigin (creation : Creation PrivateKey)
    (history : List OpeningEvent)
    (secureConn : SecureConnection PrivateKey) : Prop where
  secure : IsSecure creation history
  keyPair : ∀ setting keyPair socket,
    creation = .passive setting keyPair socket →
      secureConn.privateKey = some keyPair.privateKey ∧
        secureConn.aesKey = List.replicate 32 0

/-- Where the key of an open connection comes from. -/
structure KeyOrigin (creation : Creation PrivateKey)
    (history : List OpeningEvent) (key : Option (List UInt8)) : Prop where
  setting : creation = .active → ∃ event ∈ history, event.IsSecuritySetting
  plain : key = none → ¬IsSecure creation history
  secure : ∀ aesKey, key = some aesKey →
    IsSecure creation history ∧
      ∃ event ∈ history, event.SetsAesKey crypto creation aesKey

/-- The stages of a connection that is not closing. -/
inductive Stage (creation : Creation PrivateKey)
    (opening : Opening PrivateKey) : Prop
  | opening (holding : opening.Holding)
      (isOpening : opening.state.connection.isOpening = true)
      (plain : opening.state.connection.secureConn = none)
      (waiting : opening.state.connection.pendingList = opening.givenIds)
      (quiet : ∀ event ∈ opening.history, ¬event.IsSecuritySetting)
  | starting {secureConn} (holding : opening.Holding)
      (opened : opening.state.connection.isOpening = false)
      (present : opening.state.connection.secureConn = some secureConn)
      (starting : secureConn.state = .starting)
      (waiting : secureConn.pendingList = opening.givenIds)
      (origin : StartOrigin creation opening.history secureConn)
  | ready {key} (ready : Ready key opening.state.connection)
      (handed : opening.handed = enciphered crypto key opening.given)
      (origin : KeyOrigin crypto creation opening.history key)

/-- What holds as long as no list is interrupted. -/
structure Ordered (creation : Creation PrivateKey)
    (opening : Opening PrivateKey) : Prop where
  openType : opening.state.connection.openType = creation.openType
  books : Books opening.given opening.state
  stage : Stage crypto creation opening

/-! ## Given and handed packages -/

section

variable {before after : Opening PrivateKey}

/-- Calls of `send_raw_package` add those with given packages to the handed
ones, and a package that is given later was not passed on before. -/
theorem handed_append {calls more : List (Int × PackageEntry)}
    (given : after.given = before.given ++ more)
    (raw : after.state.connection.raw = before.state.connection.raw ++ calls)
    (fresh : ∀ packageId ∈ more.map Prod.fst,
      packageId ∉ before.state.connection.raw.map Prod.fst) :
    after.handed =
      before.handed ++ calls.filter fun call => call.1 ∈ after.givenIds := by
  have same : before.state.connection.raw.filter
      (fun call => call.1 ∈ after.givenIds) = before.handed := by
    apply List.filter_congr
    intro call member
    have old : call.1 ∉ more.map Prod.fst := by
      intro new
      exact fresh call.1 new (List.mem_map_of_mem member)
    apply decide_eq_decide.mpr
    rw [givenIds, givenIds, given, List.map_append, List.mem_append]
    exact or_iff_left old
  rw [handed, raw, List.filter_append, same]

theorem handed_eq_of_passed {calls : List (Int × PackageEntry)}
    (given : after.given = before.given)
    (passed : Passed calls before.state after.state) :
    after.handed =
      before.handed ++ calls.filter fun call => call.1 ∈ before.givenIds := by
  have appended := @handed_append _ before after calls []
    (by rw [given, List.append_nil]) passed.raw (by simp)
  rwa [givenIds, given] at appended

end

section Books

variable {given : List (Int × PackageEntry)}
  {before after : ConnectionState PrivateKey}

theorem Books.passed (books : Books given before)
    {calls : List (Int × PackageEntry)} (passed : Passed calls before after)
    (older : ∀ packageId ∈ calls.map Prod.fst,
      packageId < before.packages.nextId) : Books given after where
  nodup := books.nodup
  given_lt := by
    rw [passed.nextId]
    exact books.given_lt
  raw_lt := by
    rw [passed.nextId, passed.raw, List.map_append]
    intro packageId member
    rcases List.mem_append.mp member with earlier | new
    · exact books.raw_lt packageId earlier
    · exact older packageId new
  sendList := by
    intro packageId waits
    rw [passed.raw, List.map_append]
    apply List.mem_append.mpr
    exact (passed.sendList packageId waits).imp_left
      (books.sendList packageId)

/-- A registered package takes the next identifier. -/
theorem Books.register (books : Books given before)
    (package : PackageEntry) : Books given (before.register package) where
  nodup := books.nodup
  given_lt packageId member :=
    Int.lt_trans (books.given_lt packageId member) (nextId_lt_register _ _)
  raw_lt packageId member :=
    Int.lt_trans (books.raw_lt packageId member) (nextId_lt_register _ _)
  sendList := books.sendList

theorem Books.nextId_not_mem (books : Books given before) :
    before.packages.nextId ∉ given.map Prod.fst :=
  fun member => Int.lt_irrefl _ (books.given_lt _ member)

/-- A package that is registered and given. -/
theorem Books.give (books : Books given before) (package : PackageEntry) :
    Books (given ++ [(before.packages.nextId, package)])
      (before.register package) where
  nodup := by
    rw [List.map_append, List.map_cons, List.map_nil]
    apply List.nodup_append.mpr
    refine ⟨books.nodup, List.pairwise_singleton _ _, ?_⟩
    rintro packageId member other new rfl
    rw [List.mem_singleton] at new
    subst new
    exact books.nextId_not_mem member
  given_lt := by
    intro packageId member
    rw [List.map_append, List.map_cons, List.map_nil, List.mem_append,
      List.mem_singleton] at member
    rcases member with old | rfl
    · exact Int.lt_trans (books.given_lt packageId old)
        (nextId_lt_register _ _)
    · exact nextId_lt_register _ _
  raw_lt packageId member :=
    Int.lt_trans (books.raw_lt packageId member) (nextId_lt_register _ _)
  sendList := books.sendList

end Books

/-! ## Packages that wait -/

/-- A package of the application, registered and given. -/
def give (opening : Opening PrivateKey) (package : PackageEntry) :
    Opening PrivateKey :=
  { opening with
    state := opening.state.register package
    given := opening.given ++ [(opening.state.packages.nextId, package)] }

section Holding

variable {before after : Opening PrivateKey}

/-- Packages that wait were not passed on. -/
theorem Holding.not_mem_raw (holding : before.Holding) {packageId : Int}
    (given : packageId ∈ before.givenIds) :
    packageId ∉ before.state.connection.raw.map Prod.fst := by
  intro passedOn
  obtain ⟨call, member, rfl⟩ := List.mem_map.mp passedOn
  have absent := List.filter_eq_nil_iff.mp holding.handed call member
  simp [given] at absent

/-- Packages of the framework are passed on while those of the application
wait. -/
theorem Holding.passed (holding : before.Holding)
    (given : after.given = before.given)
    {calls : List (Int × PackageEntry)}
    (passed : Passed calls before.state after.state)
    (others : ∀ packageId ∈ calls.map Prod.fst,
      packageId ∉ before.givenIds) : after.Holding where
  handed := by
    rw [handed_eq_of_passed given passed, holding.handed, List.nil_append]
    apply List.filter_eq_nil_iff.mpr
    intro call member
    simpa using others call.1 (List.mem_map_of_mem member)
  stored := by
    rw [given]
    intro call member
    rw [passed.findPackage call.1 ?_]
    · exact holding.stored call member
    · intro passedOn
      exact others call.1 passedOn (List.mem_map_of_mem member)

theorem Holding.give (holding : before.Holding)
    (books : Books before.given before.state) (package : PackageEntry) :
    (before.give package).Holding where
  handed := by
    have fresh : before.state.packages.nextId ∉
        before.state.connection.raw.map Prod.fst :=
      fun passedOn => Int.lt_irrefl _ (books.raw_lt _ passedOn)
    rw [@handed_append _ before (before.give package) []
      [(before.state.packages.nextId, package)] rfl
      (List.append_nil _).symm (by simpa using fresh), holding.handed]
    rfl
  stored := by
    intro call member
    rcases List.mem_append.mp member with old | new
    · have older := books.given_lt call.1 (List.mem_map_of_mem old)
      rw [Opening.give, findPackage_register_of_lt _ _ older]
      exact holding.stored call old
    · rw [List.mem_singleton] at new
      subst new
      exact findPackage_register_self _ _

end Holding

/-! ## Events that touch nothing -/

/-- What waits and what was passed on stay as they are. -/
structure Untouched (before after : ConnectionState PrivateKey) : Prop where
  openType : after.connection.openType = before.connection.openType
  isOpening : after.connection.isOpening = before.connection.isOpening
  isClosing : after.connection.isClosing = before.connection.isClosing
  secureConn : after.connection.secureConn = before.connection.secureConn
  pendingList : after.connection.pendingList = before.connection.pendingList
  raw : after.connection.raw = before.connection.raw
  sendList : ∀ packageId ∈ after.connection.sendList,
    packageId ∈ before.connection.sendList
  nextId : before.packages.nextId ≤ after.packages.nextId
  findPackage : ∀ packageId < before.packages.nextId,
    packageId ∉ before.connection.raw.map Prod.fst →
      after.findPackage packageId = before.findPackage packageId

theorem Untouched.refl (state : ConnectionState PrivateKey) :
    Untouched state state :=
  ⟨rfl, rfl, rfl, rfl, rfl, rfl, fun _ => id, Int.le_refl _,
    fun _ _ _ => rfl⟩

/-- A received package is pushed on. -/
theorem untouched_pushIn (state : ConnectionState PrivateKey)
    (package : InPackage) : Untouched state (state.pushIn package) where
  openType := rfl
  isOpening := rfl
  isClosing := rfl
  secureConn := rfl
  pendingList := rfl
  raw := rfl
  sendList _ := id
  nextId := Int.le_of_lt (nextId_lt_register state _)
  findPackage _ older _ := findPackage_register_of_lt state _ older

/-- The packages that the socket takes were passed on before. -/
theorem untouched_onWritable {state : ConnectionState PrivateKey}
    (staysOpen : state.connection.isClosing = false)
    (sendList : ∀ packageId ∈ state.connection.sendList,
      packageId ∈ state.connection.raw.map Prod.fst) (result : SendResult) :
    Untouched state ((onWritable result).after state) := by
  have suffix : dropRemoved state.packages state.connection.sendList <:+
      state.connection.sendList := List.dropWhile_suffix _
  unfold Action.after onWritable
  cases waiting : dropRemoved state.packages state.connection.sendList with
  | nil =>
      refine ⟨rfl, rfl, rfl, rfl, rfl, rfl, ?_, Int.le_refl _,
        fun _ _ _ => rfl⟩
      simp
  | cons packageId rest =>
      rw [waiting] at suffix
      have kept : ∀ other ∈ packageId :: rest,
          other ∈ state.connection.sendList := fun _ => suffix.mem
      cases result with
      | thrown | part =>
          exact ⟨rfl, rfl, rfl, rfl, rfl, rfl, kept, Int.le_refl _,
            fun _ _ _ => rfl⟩
      | whole =>
          simp only [staysOpen, Bool.false_eq_true, and_false, if_false]
          refine ⟨rfl, rfl, staysOpen.symm, rfl, rfl, rfl, ?_,
            Int.le_refl _, ?_⟩
          · exact fun other later =>
              kept other (List.mem_cons_of_mem _ later)
          · intro other _ notRaw
            refine Table.lookup_erase_of_ne _ ?_
            rintro rfl
            exact notRaw (sendList packageId (kept packageId (by simp)))

section Untouched

variable {crypto} {creation : Creation PrivateKey}
  {before after : Opening PrivateKey} {event : OpeningEvent}

theorem Books.untouched {given : List (Int × PackageEntry)}
    {before after : ConnectionState PrivateKey} (books : Books given before)
    (untouched : Untouched before after) : Books given after where
  nodup := books.nodup
  given_lt packageId member :=
    Int.lt_of_lt_of_le (books.given_lt packageId member) untouched.nextId
  raw_lt := by
    rw [untouched.raw]
    intro packageId member
    exact Int.lt_of_lt_of_le (books.raw_lt packageId member) untouched.nextId
  sendList packageId waits := by
    rw [untouched.raw]
    exact books.sendList packageId (untouched.sendList packageId waits)

theorem isSecure_snoc_iff {history : List OpeningEvent}
    (quiet : ¬event.OpensSecurity) :
    IsSecure creation (history ++ [event]) ↔ IsSecure creation history := by
  simp [IsSecure, quiet]

theorem IsSecure.snoc {history : List OpeningEvent}
    (secure : IsSecure creation history) (event : OpeningEvent) :
    IsSecure creation (history ++ [event]) := by
  rcases secure with passive | ⟨earlier, member, opens⟩
  · exact Or.inl passive
  · exact Or.inr ⟨earlier, List.mem_append_left _ member, opens⟩

theorem StartOrigin.snoc {history : List OpeningEvent}
    {secureConn : SecureConnection PrivateKey}
    (origin : StartOrigin creation history secureConn)
    (event : OpeningEvent) :
    StartOrigin creation (history ++ [event]) secureConn :=
  ⟨origin.secure.snoc event, origin.keyPair⟩

theorem KeyOrigin.snoc {history : List OpeningEvent}
    {key : Option (List UInt8)}
    (origin : KeyOrigin crypto creation history key)
    (quiet : ¬event.OpensSecurity) :
    KeyOrigin crypto creation (history ++ [event]) key where
  setting active := by
    obtain ⟨earlier, member, isSetting⟩ := origin.setting active
    exact ⟨earlier, List.mem_append_left _ member, isSetting⟩
  plain noKey := by
    rw [isSecure_snoc_iff quiet]
    exact origin.plain noKey
  secure aesKey isKey := by
    obtain ⟨secure, earlier, member, sets⟩ := origin.secure aesKey isKey
    exact ⟨secure.snoc event, earlier, List.mem_append_left _ member, sets⟩

theorem Holding.untouched (holding : before.Holding)
    (books : Books before.given before.state)
    (untouched : Untouched before.state after.state)
    (given : after.given = before.given) : after.Holding where
  handed := by
    rw [Opening.handed, givenIds, given, untouched.raw]
    exact holding.handed
  stored := by
    rw [given]
    intro call member
    have isGiven : call.1 ∈ before.givenIds := List.mem_map_of_mem member
    rw [untouched.findPackage call.1 (books.given_lt call.1 isGiven)
      (holding.not_mem_raw isGiven)]
    exact holding.stored call member

theorem Ordered.untouched (ordered : Ordered crypto creation before)
    (untouched : Untouched before.state after.state)
    (given : after.given = before.given)
    (history : after.history = before.history ++ [event])
    (quiet : ¬event.IsSecuritySetting) : Ordered crypto creation after where
  openType := untouched.openType.trans ordered.openType
  books := by
    rw [given]
    exact ordered.books.untouched untouched
  stage := by
    have notOpens : ¬event.OpensSecurity := fun opens =>
      quiet (OpeningEvent.isSecuritySetting_of_opensSecurity opens)
    have sameIds : after.givenIds = before.givenIds := by
      rw [givenIds, givenIds, given]
    cases ordered.stage with
    | opening holding isOpening plain waiting calm =>
        refine .opening (holding.untouched ordered.books untouched given)
          (untouched.isOpening.trans isOpening)
          (untouched.secureConn.trans plain) ?_ ?_
        · rw [untouched.pendingList, waiting, sameIds]
        · rw [history]
          exact List.forall_mem_append.mpr ⟨calm, by simpa using quiet⟩
    | @starting secureConn holding opened present starting waiting origin =>
        refine .starting (holding.untouched ordered.books untouched given)
          (untouched.isOpening.trans opened)
          (untouched.secureConn.trans present) starting ?_ ?_
        · rw [waiting, sameIds]
        · rw [history]
          exact origin.snoc event
    | @ready key ready handed origin =>
        refine .ready (ready.congr untouched.secureConn untouched.isOpening
          untouched.isClosing) ?_ ?_
        · rw [Opening.handed, givenIds, given, untouched.raw]
          exact handed
        · rw [history]
          exact origin.snoc notOpens

end Untouched

/-! ## A package is given -/

theorem passed_setSecureConn (state : ConnectionState PrivateKey)
    (secureConn : SecureConnection PrivateKey) :
    Passed [] state (state.setSecureConn secureConn) :=
  ⟨(List.append_nil _).symm, fun _ => Or.inl, fun _ _ => rfl, rfl, rfl, rfl,
    rfl⟩

theorem enciphered_append (key : Option (List UInt8))
    (first second : List (Int × PackageEntry)) :
    enciphered crypto key (first ++ second) =
      enciphered crypto key first ++ enciphered crypto key second :=
  List.map_append

section Given

variable {crypto} {creation : Creation PrivateKey}
  {opening : Opening PrivateKey}

theorem givenIds_give (package : PackageEntry) :
    (opening.give package).givenIds =
      opening.givenIds ++ [opening.state.packages.nextId] := by
  rw [givenIds, give, List.map_append]
  rfl

/-- A package that is given while others wait, waits behind them; otherwise
it is passed on. -/
theorem Ordered.sendPackage (ordered : Ordered crypto creation opening)
    (isOpen : opening.IsOpen) (package : PackageEntry)
    (socket : Int → SendResult) :
    Ordered crypto creation
      (opening.advance crypto (.sendPackage package socket)) := by
  let packageId := opening.state.packages.nextId
  let given := opening.give package
  let event := OpeningEvent.sendPackage package socket
  have books : Books given.given given.state := ordered.books.give package
  have staysOpen : given.state.connection.isClosing = false := isOpen.1
  have noSetting : ¬event.IsSecuritySetting := id
  -- what the three stages share
  suffices reached : ∀ after,
      (ConnectionState.sendPackage crypto socket packageId).after
        given.state = after →
      ∃ calls, Passed calls given.state after ∧
        (∀ other ∈ calls.map Prod.fst, other = packageId) ∧
        Stage crypto creation
          { state := after, given := given.given
            history := opening.history ++ [event] } by
    obtain ⟨calls, passed, onlyThis, stage⟩ := reached _ rfl
    refine ⟨passed.openType.trans ordered.openType, ?_, stage⟩
    apply books.passed passed
    intro other passedOn
    rw [onlyThis other passedOn]
    exact nextId_lt_register _ _
  rintro after rfl
  cases ordered.stage with
  | opening holding isOpening plain waiting quiet =>
      have waits : (ConnectionState.sendPackage crypto socket packageId).after
          given.state = setPendingList
            (opening.state.connection.pendingList ++ [packageId])
            given.state := by
        have noSecure : given.state.connection.secureConn = none := plain
        have opens : given.state.connection.isOpening = true := isOpening
        rw [Action.after, sendPackage_of_opening staysOpen opens noSecure]
        rfl
      rw [waits]
      have passed := (queue_pendingList none).passed_pop
        (opening.state.connection.pendingList ++ [packageId]) given.state
      refine ⟨[], passed, by simp, .opening ?_ isOpening plain ?_ ?_⟩
      · exact (holding.give ordered.books package).passed rfl passed (by simp)
      · exact (congrArg (· ++ [packageId]) waiting).trans
          (givenIds_give package).symm
      · exact List.forall_mem_append.mpr ⟨quiet, by simpa using noSetting⟩
  | @starting secureConn holding opened present starting waiting origin =>
      let longer := { secureConn with
        pendingList := secureConn.pendingList ++ [packageId] }
      have waits : (ConnectionState.sendPackage crypto socket packageId).after
          given.state = given.state.setSecureConn longer := by
        have stillThere : given.state.connection.secureConn =
            some secureConn := present
        rw [Action.after,
          sendPackage_of_starting staysOpen stillThere starting]
      rw [waits]
      have passed := passed_setSecureConn given.state longer
      refine ⟨[], passed, by simp, @Stage.starting _ _ _ _ _ longer ?_ opened
        rfl starting ?_ ?_⟩
      · exact (holding.give ordered.books package).passed rfl passed (by simp)
      · exact (congrArg (· ++ [packageId]) waiting).trans
          (givenIds_give package).symm
      · exact ⟨origin.secure.snoc event, origin.keyPair⟩
  | @ready key ready handed origin =>
      have readyGiven : Ready key given.state.connection := ready
      have sent : RawSent socket (packageId, crypto.encipher key package)
          given.state
          (ConnectionState.sendPackage crypto socket packageId given.state) :=
        sendPackage_sent readyGiven (findPackage_register_self _ _)
      refine ⟨_, sent.passed, by simp, .ready (readyGiven.congr
        sent.secureConn sent.isOpening sent.isClosing) ?_
        (origin.snoc id)⟩
      have fresh : packageId ∉
          opening.state.connection.raw.map Prod.fst :=
        fun passedOn => Int.lt_irrefl _ (ordered.books.raw_lt _ passedOn)
      rw [@handed_append _ opening _
        [(packageId, crypto.encipher key package)] [(packageId, package)] rfl
        sent.passed.raw (by simpa using fresh), handed]
      change _ = enciphered crypto key
        (opening.given ++ [(packageId, package)])
      rw [enciphered_append]
      congr 1
      apply List.filter_eq_self.mpr
      intro call member
      rw [List.mem_singleton] at member
      subst member
      apply decide_eq_true
      change packageId ∈ given.givenIds
      rw [givenIds_give]
      exact List.mem_append_right _ (List.mem_singleton_self _)

end Given

end Opening

end Details
end Foundation
end Spaceless
