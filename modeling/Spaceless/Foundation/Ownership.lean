import Spaceless.Foundation.Arrival
import Spaceless.Foundation.Custody
import Spaceless.Foundation.Network

/-!
# Packages in the custody of the network side

As long as a package for the network is registered, it waits in the out queue
or in a list of a live connection, and a connection that ends takes its
packages with it.  This holds in runs in which no call of `sendBytes` throws,
the connections that services need can be established, and no package waits
for the opening or for the crypto start of a connection that is destroyed.
-/

namespace Spaceless
namespace Foundation
namespace Details

open Crypto Logic

namespace NetworkSide

variable {PublicKey PrivateKey : Type}

/-- The packages of the messages in the out queue. -/
def queued (side : NetworkSide PrivateKey) : List Int :=
  side.outQueue.filterMap fun
    | .network msg => some msg.packageId
    | .delegate _ => none

/-- A package for the network that is registered and that nothing holds. -/
structure Leaked (side : NetworkSide PrivateKey) (packageId : Int) :
    Prop where
  registered : (side.packages.findPackage packageId).isSome = true
  outgoing : packageId ∉ side.inQueue
  notQueued : packageId ∉ side.queued
  notHeld : ∀ connId connection,
    side.findConnection connId = some connection →
      ¬(side.connectionState connection).Holds packageId

/-- The packages that a connection holds are removed when it is destroyed. -/
def Releases (before after : NetworkSide PrivateKey) : Prop :=
  ∀ connId connection, before.findConnection connId = some connection →
    after.findConnection connId = none →
      ∀ packageId, (before.connectionState connection).Holds packageId →
        packageId ∉ after.inQueue →
          after.packages.findPackage packageId = none

/-- Nothing is leaked in the states of a run, and connections take their
packages with them. -/
def Accounted (crypto : CryptoLibrary PublicKey PrivateKey)
    (events : List (NetworkEvent PrivateKey)) : Prop :=
  (machine crypto).Throughout
      (fun side => ∀ packageId, ¬side.Leaked packageId) events ∧
    ∀ first event second, events = first ++ event :: second →
      ∀ before after, (machine crypto).Reaches first before →
        step crypto before event = some after → Releases before after

/-! ## Steps that abandon no package -/

/-- The connection of a service can be established. -/
def Connects (side : NetworkSide PrivateKey) (serviceId : Int)
    (opens : Bool) : Prop :=
  (side.services.findService serviceId).isSome = true ∧
    (opens = true ∨ ∃ connId,
      side.services.connList[serviceId]? = some connId ∧
        (side.findOpenConnection connId).isSome = true)

/-- If the connection is destroyed by `close`, no package waits. -/
def ClosesIdle (side : NetworkSide PrivateKey) (connId : Int) : Prop :=
  ∀ connection, side.findConnection connId = some connection →
    connection.sendList = [] → (side.connectionState connection).NoneWait

def CarefulMessage (side : NetworkSide PrivateKey) (opens : Bool) :
    ActorMessage → Prop
  | .network msg =>
      (side.packages.findPackage msg.packageId).isSome = true →
        msg.connId = 0 → side.Connects msg.serviceId opens
  | .delegate (.registerService _ _) => True
  | .delegate (.removeService serviceId) =>
      ∀ connId, side.services.connList[serviceId]? = some connId →
        side.ClosesIdle connId

/-- A condition on the event and the state before it. -/
def Careful (side : NetworkSide PrivateKey) :
    NetworkEvent PrivateKey → Prop
  | .sendMessage _ _ _ | .delegate _ | .handled _ | .connect _ => True
  | .processOutMessage opens socket =>
      (∀ packageId, socket packageId ≠ .thrown) ∧
        ∀ message rest, side.outQueue = message :: rest →
          side.CarefulMessage opens message
  | .accept _ _ socket => ∀ packageId, socket packageId ≠ .thrown
  | .receive connId _ buffer socket =>
      (∀ packageId, socket packageId ≠ .thrown) ∧
        ∀ connection, side.findConnection connId = some connection →
          buffer.header.command = ntfSecuritySetting →
            ¬(side.connectionState connection).TakesSetting buffer →
              connection.sendList = [] →
                (side.connectionState connection).NoneWait
  | .invalidVersion connId command socket =>
      (∀ packageId, socket packageId ≠ .thrown) ∧
        ∀ connection, side.findConnection connId = some connection →
          connection.sendList = [] →
            (command ≠ ntfInvalidVersion →
              socket side.packages.nextId = .whole) →
              (side.connectionState connection).NoneWait
  | .onWritable connId result =>
      ∀ connection, side.findConnection connId = some connection →
        connection.isClosing = true → result = .whole →
          (∃ packageId, ConnectionState.dropRemoved side.packages
            connection.sendList = [packageId]) →
            (side.connectionState connection).NoneWait
  | .close connId => side.ClosesIdle connId
  | .closeWithoutWaiting connId =>
      ∀ connection, side.findConnection connId = some connection →
        (side.connectionState connection).NoneWait

/-! ## Live connections -/

/-- The connections in the list are live, and their identifiers were given. -/
structure Sound (side : NetworkSide PrivateKey) : Prop where
  fresh : ∀ connId connection,
    side.findConnection connId = some connection → connId < side.nextId
  alive : ∀ connId connection,
    side.findConnection connId = some connection →
      connection.destroyed = false
  unopened : ∀ connId connection,
    side.findConnection connId = some connection →
      ConnectionState.Unopened connection

theorem sound_init : (init : NetworkSide PrivateKey).Sound where
  fresh connId connection found := by simp [init, findConnection] at found
  alive connId connection found := by simp [init, findConnection] at found
  unopened connId connection found := by simp [init, findConnection] at found

theorem not_leaked_init (packageId : Int) :
    ¬(init : NetworkSide PrivateKey).Leaked packageId := by
  intro leaked
  have registered := leaked.registered
  simp [init, PackageManager.init, PackageManager.findPackage] at registered

/-- A step in which every connection stays. -/
structure Grows (before after : NetworkSide PrivateKey) : Prop where
  leaked : ∀ packageId, after.Leaked packageId → before.Leaked packageId
  sound : after.Sound
  keeps : ∀ connId, (before.findConnection connId).isSome = true →
    (after.findConnection connId).isSome = true

/-- A step that abandons no package. -/
structure Tidy (before after : NetworkSide PrivateKey) : Prop where
  leaked : ∀ packageId, after.Leaked packageId → before.Leaked packageId
  sound : after.Sound
  releases : Releases before after

section Steps

variable {before middle after side : NetworkSide PrivateKey}

theorem Grows.refl (sound : side.Sound) : Grows side side :=
  ⟨fun _ => id, sound, fun _ => id⟩

theorem Grows.trans (first : Grows before middle)
    (second : Grows middle after) : Grows before after where
  leaked packageId leaked := first.leaked packageId
    (second.leaked packageId leaked)
  sound := second.sound
  keeps connId present := second.keeps connId (first.keeps connId present)

theorem releases_of_keeps
    (keeps : ∀ connId, (before.findConnection connId).isSome = true →
      (after.findConnection connId).isSome = true) :
    Releases before after := by
  intro connId connection found gone
  have still := keeps connId (found ▸ rfl)
  rw [gone] at still
  cases still

theorem Grows.tidy (grows : Grows before after) : Tidy before after where
  leaked := grows.leaked
  sound := grows.sound
  releases := releases_of_keeps grows.keeps

end Steps

/-! ## One connection -/

section Visits

variable {side : NetworkSide PrivateKey} {connId : Int}
  {connection : NetworkConnectionImpl PrivateKey}
  {change : ConnectionState PrivateKey → ConnectionState PrivateKey}

theorem findConnection_visit_of_ne {other : Int} (different : connId ≠ other) :
    (side.visit connId connection change).findConnection other =
      side.findConnection other := by
  unfold visit findConnection
  dsimp only
  split
  · exact Table.lookup_erase_of_ne _ different
  · exact Table.lookup_insert_of_ne _ _ different

theorem findConnection_visit_of_destroyed
    (destroyed : (change (side.connectionState
      connection)).connection.destroyed = true) :
    (side.visit connId connection change).findConnection connId = none := by
  unfold visit findConnection
  dsimp only
  rw [if_pos destroyed]
  exact Table.lookup_erase_self _ _

theorem findConnection_visit_of_alive
    (alive : (change (side.connectionState
      connection)).connection.destroyed = false) :
    (side.visit connId connection change).findConnection connId =
      some (change (side.connectionState connection)).connection := by
  unfold visit findConnection
  dsimp only
  rw [if_neg (Bool.not_eq_true _ ▸ alive)]
  exact Table.lookup_insert_self _ _ _

variable (found : side.findConnection connId = some connection)
  (alive : connection.destroyed = false)

include alive

/-- After a settled change the connection holds what it does not let go. -/
theorem loose_of_leaked_visit
    (settled : ConnectionState.Settled (side.connectionState connection)
      (change (side.connectionState connection))) {packageId : Int}
    (leaked : (side.visit connId connection change).Leaked packageId) :
    ConnectionState.Loose (change (side.connectionState connection))
      packageId := by
  apply ConnectionState.loose_of_not_holds leaked.registered leaked.outgoing
  cases destroyed : (change (side.connectionState
      connection)).connection.destroyed with
  | true => exact settled.released alive destroyed packageId
  | false =>
      exact leaked.notHeld connId _ (findConnection_visit_of_alive destroyed)

include found

theorem leaked_visit
    (settled : ConnectionState.Settled (side.connectionState connection)
      (change (side.connectionState connection))) {packageId : Int}
    (leaked : (side.visit connId connection change).Leaked packageId) :
    side.Leaked packageId := by
  have loose := settled.loose packageId
    (loose_of_leaked_visit alive settled leaked)
  refine ⟨loose.registered, loose.outgoing, leaked.notQueued, ?_⟩
  intro other otherConnection there
  by_cases same : connId = other
  · subst same
    rw [found] at there
    cases there
    exact loose.not_holds
  · exact leaked.notHeld other otherConnection
      ((findConnection_visit_of_ne same).trans there)

theorem releases_visit
    (settled : ConnectionState.Settled (side.connectionState connection)
      (change (side.connectionState connection))) :
    Releases side (side.visit connId connection change) := by
  intro other otherConnection there gone packageId held outgoing
  by_cases same : connId = other
  · subst same
    rw [found] at there
    cases there
    cases destroyed : (change (side.connectionState
        connection)).connection.destroyed with
    | false =>
        rw [findConnection_visit_of_alive destroyed] at gone
        cases gone
    | true => exact settled.removed alive destroyed held outgoing
  · rw [findConnection_visit_of_ne same, there] at gone
    cases gone

end Visits

theorem Sound.visit {side : NetworkSide PrivateKey} (sound : side.Sound)
    {connId : Int} {connection : NetworkConnectionImpl PrivateKey}
    {change : ConnectionState PrivateKey → ConnectionState PrivateKey}
    (found : side.findConnection connId = some connection)
    (settled : ConnectionState.Settled (side.connectionState connection)
      (change (side.connectionState connection))) :
    (side.visit connId connection change).Sound := by
  have cases_of_found {other : Int}
      {otherConnection : NetworkConnectionImpl PrivateKey}
      (there : (side.visit connId connection change).findConnection other =
        some otherConnection) :
      side.findConnection other = some otherConnection ∨
        other = connId ∧ otherConnection.destroyed = false ∧
          otherConnection =
            (change (side.connectionState connection)).connection := by
    by_cases same : connId = other
    · subst same
      right
      cases destroyed : (change (side.connectionState
          connection)).connection.destroyed with
      | true =>
          rw [findConnection_visit_of_destroyed destroyed] at there
          cases there
      | false =>
          rw [findConnection_visit_of_alive destroyed] at there
          cases there
          exact ⟨rfl, destroyed, rfl⟩
    · left
      rwa [findConnection_visit_of_ne same] at there
  refine ⟨?_, ?_, ?_⟩
  · intro other otherConnection there
    rcases cases_of_found there with before | ⟨rfl, -, -⟩
    · exact sound.fresh other otherConnection before
    · exact sound.fresh other connection found
  · intro other otherConnection there
    rcases cases_of_found there with before | ⟨-, alive, -⟩
    · exact sound.alive other otherConnection before
    · exact alive
  · intro other otherConnection there
    rcases cases_of_found there with before | ⟨-, -, rfl⟩
    · exact sound.unopened other otherConnection before
    · exact settled.unopened (sound.unopened connId connection found)

/-- A settled change of a connection. -/
theorem Sound.tidy_visit {side : NetworkSide PrivateKey} (sound : side.Sound)
    {connId : Int} {connection : NetworkConnectionImpl PrivateKey}
    {change : ConnectionState PrivateKey → ConnectionState PrivateKey}
    (found : side.findConnection connId = some connection)
    (settled : ConnectionState.Settled (side.connectionState connection)
      (change (side.connectionState connection))) :
    Tidy side (side.visit connId connection change) where
  leaked _ leaked := leaked_visit found
    (sound.alive connId connection found) settled leaked
  sound := sound.visit found settled
  releases := releases_visit found (sound.alive connId connection found)
    settled

/-! ## New connections -/

section Connecting

variable {side : NetworkSide PrivateKey}

theorem Sound.findConnection_create (sound : side.Sound)
    (creation : ConnectionState.Creation PrivateKey) (connId : Int) :
    (side.create creation).findConnection connId =
      if side.nextId = connId then
        some (ConnectionState.create side.packages side.inQueue
          creation).connection
      else side.findConnection connId := by
  have fresh : side.connList[side.nextId]? = none := by
    cases found : side.connList[side.nextId]? with
    | none => rfl
    | some connection =>
        exact absurd (sound.fresh side.nextId connection found)
          (Int.lt_irrefl _)
  unfold create findConnection
  dsimp only
  rw [Table.insertIfNew_of_fresh _ fresh]
  exact Table.lookup_insert _ _ _ _

theorem Sound.grows_create (sound : side.Sound)
    {creation : ConnectionState.Creation PrivateKey}
    (accepts : creation.accepts) : Grows side (side.create creation) := by
  obtain ⟨loose, unopened, destroyed⟩ :=
    ConnectionState.create_loose side.packages side.inQueue accepts
  have old {connId : Int} {connection : NetworkConnectionImpl PrivateKey}
      (found : side.findConnection connId = some connection) :
      (side.create creation).findConnection connId = some connection := by
    rw [sound.findConnection_create, if_neg, found]
    rintro rfl
    exact Int.lt_irrefl _ (sound.fresh _ connection found)
  have either {connId : Int} {connection : NetworkConnectionImpl PrivateKey}
      (found : (side.create creation).findConnection connId =
        some connection) :
      connId = side.nextId ∧ connection = (ConnectionState.create
        side.packages side.inQueue creation).connection ∨
          side.findConnection connId = some connection := by
    rw [sound.findConnection_create] at found
    split at found
    · next same => exact .inl ⟨same.symm, (Option.some.inj found).symm⟩
    · exact .inr found
  refine ⟨?_, ⟨?_, ?_, ?_⟩, ?_⟩
  · intro packageId leaked
    have created : (side.create creation).findConnection side.nextId =
        some (ConnectionState.create side.packages side.inQueue
          creation).connection := by
      rw [sound.findConnection_create, if_pos rfl]
    obtain ⟨registered, outgoing⟩ := loose packageId
      (ConnectionState.loose_of_not_holds leaked.registered leaked.outgoing
        (leaked.notHeld side.nextId _ created))
    exact ⟨registered, outgoing, leaked.notQueued,
      fun connId connection found =>
        leaked.notHeld connId connection (old found)⟩
  · intro connId connection found
    rcases either found with ⟨rfl, -⟩ | before
    · exact Int.lt_succ _
    · exact Int.lt_trans (sound.fresh connId connection before)
        (Int.lt_succ _)
  · intro connId connection found
    rcases either found with ⟨-, rfl⟩ | before
    · exact destroyed
    · exact sound.alive connId connection before
  · intro connId connection found
    rcases either found with ⟨-, rfl⟩ | before
    · exact unopened
    · exact sound.unopened connId connection before
  · intro connId present
    obtain ⟨connection, found⟩ := Option.isSome_iff_exists.mp present
    rw [old found]
    rfl

/-- The services hold no packages. -/
theorem Sound.grows_services (sound : side.Sound)
    (services : NetworkServiceManager) :
    Grows side { side with services := services } where
  leaked _ leaked := ⟨leaked.registered, leaked.outgoing, leaked.notQueued,
    leaked.notHeld⟩
  sound := ⟨sound.fresh, sound.alive, sound.unopened⟩
  keeps _ := id

theorem Sound.grows_registerConnection (sound : side.Sound) (opens : Bool) :
    Grows side ((registerConnection opens).after side) := by
  unfold Action.after registerConnection
  split
  · exact sound.grows_create trivial
  · exact .refl sound

/-- A new connection for a service. -/
theorem Sound.grows_connect (sound : side.Sound) (opens : Bool)
    (bind : Int → NetworkSide PrivateKey → NetworkSide PrivateKey)
    (binds : ∀ connId side, ∃ services,
      bind connId side = { side with services := services }) :
    Grows side ((do
      let connId ← registerConnection opens
      Action.modify (bind connId)
      pure connId).after side) := by
  have grows := sound.grows_registerConnection opens
  cases opens with
  | false => exact grows
  | true =>
      obtain ⟨services, bound⟩ := binds side.nextId (side.create .active)
      have ended : (do
          let connId ← registerConnection true
          Action.modify (bind connId)
          pure connId).after side =
            { side.create .active with services := services } := bound
      rw [ended]
      exact grows.trans (grows.sound.grows_services services)

theorem Sound.grows_getConnectionId (sound : side.Sound) (serviceId : Int)
    (opens : Bool) :
    Grows side ((getConnectionId serviceId opens).after side) := by
  unfold Action.after getConnectionId
  split
  · exact .refl sound
  · split
    · exact sound.grows_connect opens (bindService serviceId)
        fun _ _ => ⟨_, rfl⟩
    · split
      · exact .refl sound
      · exact sound.grows_connect opens (rebindService serviceId _)
          fun _ _ => ⟨_, rfl⟩

theorem getConnectionId_of_connects {serviceId : Int} {opens : Bool}
    (connects : side.Connects serviceId opens) :
    ∃ connId, (getConnectionId serviceId opens side).1 = .ok connId := by
  obtain ⟨known, either⟩ := connects
  unfold getConnectionId
  split
  · next unknown =>
      rw [unknown] at known
      cases known
  · split
    · next unbound =>
        rcases either with rfl | ⟨connId, bound, -⟩
        · exact ⟨_, rfl⟩
        · rw [unbound] at bound
          cases bound
    · next connId bound =>
        split
        · exact ⟨_, rfl⟩
        · next lost =>
            rcases either with rfl | ⟨other, same, opened⟩
            · exact ⟨_, rfl⟩
            · rw [bound] at same
              cases same
              rw [lost] at opened
              cases opened

/-- The network side as the service manager sees it. -/
structure Serves (side : NetworkSide PrivateKey) (view : ServiceSide) :
    Prop where
  manager : side.services = view.manager
  valid : ∀ connId, (side.findOpenConnection connId).isSome = true ↔
    view.connections.isValid connId = true

theorem Sound.serves_create (sound : side.Sound) {view : ServiceSide}
    (serves : side.Serves view) (services : NetworkServiceManager) :
    Serves { side.create .active with services := services }
      ⟨services, (view.connections.registerConnection side.nextId).2⟩ where
  manager := rfl
  valid connId := by
    have looked := sound.findConnection_create .active connId
    have opened : NetworkSide.findOpenConnection
        { side.create .active with services := services } connId =
          if side.nextId = connId then
            some (ConnectionState.create side.packages side.inQueue
              .active).connection
          else side.findOpenConnection connId := by
      unfold findOpenConnection
      rw [show NetworkSide.findConnection
        { side.create .active with services := services } connId = _
          from looked]
      split <;> rfl
    rw [opened]
    unfold OpenConnections.isValid OpenConnections.registerConnection
    rw [decide_eq_true_iff, List.mem_cons]
    split
    · next same => simp [same]
    · next different =>
        have before := serves.valid connId
        unfold OpenConnections.isValid at before
        rw [decide_eq_true_iff] at before
        rw [before, or_iff_right (Ne.symm different)]

/-- A request for the connection of a service is the one of the service
manager. -/
theorem Sound.serves_getConnectionId (sound : side.Sound)
    {view : ServiceSide} (serves : side.Serves view) (serviceId : Int)
    (opens : Bool) :
    (getConnectionId serviceId opens side).1 =
        (view.getConnectionId serviceId
          (if opens = true then some side.nextId else none)).1 ∧
      Serves ((getConnectionId serviceId opens).after side)
        (view.getConnectionId serviceId
          (if opens = true then some side.nextId else none)).2 := by
  obtain ⟨manager, connections⟩ := view
  obtain rfl : side.services = manager := serves.manager
  unfold Action.after getConnectionId ServiceSide.getConnectionId
  dsimp only
  cases side.services.findService serviceId with
  | none => exact ⟨rfl, serves⟩
  | some service =>
      cases side.services.connList[serviceId]? with
      | none =>
          cases opens with
          | false => exact ⟨rfl, serves⟩
          | true => exact ⟨rfl, sound.serves_create serves _⟩
      | some connId =>
          cases opened : side.findOpenConnection connId with
          | some connection =>
              have valid := (serves.valid connId).mp (opened ▸ rfl)
              dsimp only
              rw [if_pos valid, opened]
              exact ⟨rfl, serves⟩
          | none =>
              have lost : ¬connections.isValid connId = true := by
                intro valid
                have found := (serves.valid connId).mpr valid
                rw [opened] at found
                cases found
              dsimp only
              rw [if_neg lost, opened]
              cases opens with
              | false => exact ⟨rfl, serves⟩
              | true => exact ⟨rfl, sound.serves_create serves _⟩

end Connecting

/-! ## Messages -/

/-- The package of a message is taken care of. -/
structure Takes (packageId : Int) (before after : NetworkSide PrivateKey) :
    Prop where
  leaked : ∀ other, after.Leaked other →
    before.Leaked other ∧ other ≠ packageId
  sound : after.Sound
  keeps : ∀ connId, (before.findConnection connId).isSome = true →
    (after.findConnection connId).isSome = true

section Messages

variable {crypto : CryptoLibrary PublicKey PrivateKey}
  {socket : Int → SendResult} {side : NetworkSide PrivateKey}

theorem findConnection_of_findOpenConnection {connId : Int}
    {connection : NetworkConnectionImpl PrivateKey}
    (found : side.findOpenConnection connId = some connection) :
    side.findConnection connId = some connection :=
  (Option.filter_eq_some_iff.mp found).1

theorem Sound.takes_removePackage (sound : side.Sound) (packageId : Int) :
    Takes packageId side
      { side with packages := side.packages.removePackage packageId } where
  leaked other leaked := by
    obtain ⟨different, registered⟩ :=
      PackageManager.registered_of_removePackage leaked.registered
    exact ⟨⟨registered, leaked.outgoing, leaked.notQueued, leaked.notHeld⟩,
      different⟩
  sound := ⟨sound.fresh, sound.alive, sound.unopened⟩
  keeps _ := id

/-- The package goes to an open connection or is removed. -/
theorem Sound.takes_passPackage (sound : side.Sound)
    (accepts : ∀ packageId, socket packageId ≠ .thrown)
    (connId packageId : Int) :
    Takes packageId side
      (passPackage crypto socket connId packageId side) := by
  unfold passPackage
  split
  · next connection _ opened _ =>
      have found := findConnection_of_findOpenConnection opened
      have alive := sound.alive connId connection found
      have sent : ConnectionState.Sent packageId
          (side.connectionState connection)
          (ConnectionState.sendPackage crypto socket packageId
            (side.connectionState connection)) :=
        ConnectionState.sendPackage_kept (accepts packageId) _
      have settled : ConnectionState.Settled (side.connectionState connection)
          ((ConnectionState.sendPackage crypto socket packageId).after
            (side.connectionState connection)) := .of_carried sent.carried
      refine ⟨?_, sound.visit found settled, ?_⟩
      · intro other leaked
        have loose := loose_of_leaked_visit alive settled leaked
        exact ⟨leaked_visit found alive settled leaked,
          (sent.loose other loose).2⟩
      · intro other present
        by_cases same : connId = other
        · subst same
          rw [findConnection_visit_of_alive (sent.destroyed.trans alive)]
          rfl
        · rwa [findConnection_visit_of_ne same]
  · exact sound.takes_removePackage packageId

theorem Grows.takes {before middle after : NetworkSide PrivateKey}
    {packageId : Int} (grows : Grows before middle)
    (takes : Takes packageId middle after) : Takes packageId before after where
  leaked other leaked := by
    obtain ⟨still, different⟩ := takes.leaked other leaked
    exact ⟨grows.leaked other still, different⟩
  sound := takes.sound
  keeps connId present := takes.keeps connId (grows.keeps connId present)

/-- The connection that a message names, directly or by its service. -/
theorem Grows.takes_bind {packageId : Int}
    {target : Operation PrivateKey Int} (grows : Grows side (target.after side))
    (ends : (side.packages.findPackage packageId).isSome = true →
      ∃ connId, (target side).1 = .ok connId)
    (accepts : ∀ packageId, socket packageId ≠ .thrown) :
    Takes packageId side
      ((do
        let connId ← target
        Action.modify (passPackage crypto socket connId packageId)).after
          side) := by
  cases outcome : (target side).1 with
  | ok connId =>
      rw [Action.after_bind_of_ok outcome]
      exact grows.takes
        (grows.sound.takes_passPackage accepts connId packageId)
  | error fault =>
      have thrown : (do
          let connId ← target
          Action.modify (passPackage crypto socket connId packageId)).after
            side = target.after side := by
        have ran : target side = (.error fault, target.after side) :=
          Prod.ext outcome rfl
        rw [Action.after, Action.bind_apply, ran]
      rw [thrown]
      refine ⟨?_, grows.sound, grows.keeps⟩
      intro other leaked
      have before := grows.leaked other leaked
      refine ⟨before, ?_⟩
      rintro rfl
      obtain ⟨connId, normal⟩ := ends before.registered
      rw [outcome] at normal
      cases normal

theorem Sound.takes_sendPackage (sound : side.Sound)
    (accepts : ∀ packageId, socket packageId ≠ .thrown) {opens : Bool}
    {msg : NetworkMsg}
    (careful : side.CarefulMessage opens (.network msg)) :
    Takes msg.packageId side
      ((sendPackage crypto socket opens msg).after side) := by
  unfold sendPackage
  split
  · next service =>
      apply (sound.grows_getConnectionId _ opens).takes_bind _ accepts
      intro registered
      exact getConnectionId_of_connects (careful registered service)
  · exact (Grows.refl sound).takes_bind (fun _ => ⟨_, rfl⟩) accepts

end Messages

/-! ## Steps -/

section Steps

variable {crypto : CryptoLibrary PublicKey PrivateKey}
  {side next : NetworkSide PrivateKey}

theorem Sound.tidy_removeConnection (sound : side.Sound) {connId : Int}
    (idle : side.ClosesIdle connId) :
    Tidy side (side.removeConnection connId) := by
  unfold removeConnection
  split
  · exact (Grows.refl sound).tidy
  · next connection found =>
      exact sound.tidy_visit found
        (ConnectionState.close_settled (idle connection found))

theorem Sound.tidy_callFunction (sound : side.Sound) {opens : Bool}
    {delegation : Delegation}
    (careful : side.CarefulMessage opens (.delegate delegation)) :
    Tidy side (callFunction delegation side) := by
  cases delegation with
  | registerService ip port => exact (sound.grows_services _).tidy
  | removeService serviceId =>
      have closed {middle : NetworkSide PrivateKey} (tidy : Tidy side middle)
          (services : NetworkServiceManager) :
          Tidy side { middle with services := services } := by
        have grows := tidy.sound.grows_services services
        exact ⟨fun packageId leaked => tidy.leaked packageId
          (grows.leaked packageId leaked), grows.sound, tidy.releases⟩
      unfold callFunction removeService
      dsimp only
      split
      · exact closed (Grows.refl sound).tidy _
      · next connId bound =>
          exact closed (sound.tidy_removeConnection (careful connId bound)) _

/-- A message leaves the queue and its package goes on. -/
theorem Sound.tidy_processMessage (sound : side.Sound) {opens : Bool}
    {socket : Int → SendResult} {message : ActorMessage}
    {rest : List ActorMessage} (queue : side.outQueue = message :: rest)
    (accepts : ∀ packageId, socket packageId ≠ .thrown)
    (careful : side.CarefulMessage opens message) :
    Tidy side (processMessage crypto socket opens message
      { side with outQueue := rest }) := by
  have popped : ({ side with outQueue := rest } :
      NetworkSide PrivateKey).Sound :=
    ⟨sound.fresh, sound.alive, sound.unopened⟩
  have queued : ∀ packageId, ({ side with outQueue := rest } :
      NetworkSide PrivateKey).Leaked packageId →
        packageId ∉ queued { side with outQueue := [message] } →
          side.Leaked packageId := by
    intro packageId leaked other
    refine ⟨leaked.registered, leaked.outgoing, ?_, leaked.notHeld⟩
    have split : side.queued = NetworkSide.queued
        { side with outQueue := [message] } ++
          NetworkSide.queued { side with outQueue := rest } := by
      unfold NetworkSide.queued
      rw [queue, ← List.filterMap_append]
      rfl
    rw [split, List.mem_append, not_or]
    exact ⟨other, leaked.notQueued⟩
  cases message with
  | network msg =>
      have takes : Takes msg.packageId _
          (processMessage crypto socket opens (.network msg)
            { side with outQueue := rest }) :=
        popped.takes_sendPackage accepts careful
      refine ⟨?_, takes.sound, releases_of_keeps takes.keeps⟩
      intro packageId leaked
      obtain ⟨before, different⟩ := takes.leaked packageId leaked
      exact queued packageId before
        (fun member => different (List.mem_singleton.mp member))
  | delegate delegation =>
      have tidy : Tidy _ (processMessage crypto socket opens
          (.delegate delegation) { side with outQueue := rest }) :=
        popped.tidy_callFunction careful
      refine ⟨?_, tidy.sound, tidy.releases⟩
      intro packageId leaked
      exact queued packageId (tidy.leaked packageId leaked) List.not_mem_nil

/-- The package of a new message waits in the queue. -/
theorem Sound.tidy_sendMessage (sound : side.Sound) (connId serviceId : Int)
    (package : PackageEntry) :
    Tidy side { side with
      packages := side.packages.registerPackage package
      outQueue := side.outQueue ++
        [.network ⟨connId, serviceId, side.packages.nextId⟩] } where
  leaked packageId leaked := by
    have notQueued := leaked.notQueued
    rw [queued, List.filterMap_append, List.mem_append, not_or] at notQueued
    have different : side.packages.nextId ≠ packageId := by
      rintro rfl
      exact notQueued.2 (List.mem_singleton.mpr rfl)
    have found : (side.packages.registerPackage package).findPackage
        packageId = side.packages.findPackage packageId :=
      Table.lookup_insert_of_ne _ _ different
    refine ⟨?_, leaked.outgoing, notQueued.1, leaked.notHeld⟩
    rw [← found]
    exact leaked.registered
  sound := ⟨sound.fresh, sound.alive, sound.unopened⟩
  releases := releases_of_keeps fun _ => id

theorem Sound.tidy_delegate (sound : side.Sound) (delegation : Delegation) :
    Tidy side { side with
      outQueue := side.outQueue ++ [.delegate delegation] } where
  leaked _ leaked := by
    refine ⟨leaked.registered, leaked.outgoing, ?_, leaked.notHeld⟩
    have notQueued := leaked.notQueued
    rw [queued, List.filterMap_append, List.mem_append, not_or] at notQueued
    exact notQueued.1
  sound := ⟨sound.fresh, sound.alive, sound.unopened⟩
  releases := releases_of_keeps fun _ => id

theorem Takes.tidy {packageId : Int} (takes : Takes packageId side next) :
    Tidy side next where
  leaked other leaked := (takes.leaked other leaked).1
  sound := takes.sound
  releases := releases_of_keeps takes.keeps

/-- Every careful step abandons no package. -/
theorem Sound.tidy_step (sound : side.Sound)
    {event : NetworkEvent PrivateKey} (careful : side.Careful event)
    (stepped : step crypto side event = some next) : Tidy side next := by
  cases event with
  | sendMessage connId serviceId package =>
      obtain rfl := Option.some.inj stepped
      exact sound.tidy_sendMessage connId serviceId package
  | delegate delegation =>
      obtain rfl := Option.some.inj stepped
      exact sound.tidy_delegate delegation
  | handled packageId =>
      simp only [step] at stepped
      split at stepped
      · obtain rfl := Option.some.inj stepped
        exact (sound.takes_removePackage packageId).tidy
      · cases stepped
  | processOutMessage opens socket =>
      simp only [step] at stepped
      split at stepped
      · cases stepped
      · next message rest queue =>
          obtain rfl := Option.some.inj stepped
          exact sound.tidy_processMessage queue careful.1
            (careful.2 message rest queue)
  | accept setting keyPair socket =>
      obtain rfl := Option.some.inj stepped
      have accepts : (ConnectionState.Creation.passive setting keyPair
          socket).accepts := careful
      exact (sound.grows_create accepts).tidy
  | connect opens =>
      obtain rfl := Option.some.inj stepped
      exact (sound.grows_registerConnection opens).tidy
  | receive connId random buffer socket =>
      obtain ⟨connection, opened, rfl⟩ := Option.map_eq_some_iff.mp stepped
      have found := findConnection_of_findOpenConnection opened
      exact sound.tidy_visit found
        (ConnectionState.onReceiveCompletePackage_settled careful.1 random
          (sound.unopened connId connection found)
          (careful.2 connection found))
  | invalidVersion connId command socket =>
      obtain ⟨connection, opened, rfl⟩ := Option.map_eq_some_iff.mp stepped
      have found := findConnection_of_findOpenConnection opened
      exact sound.tidy_visit found
        (ConnectionState.processCheckPackageVersion_settled careful.1
          fun idle => careful.2 connection found idle.1 idle.2)
  | onWritable connId result =>
      obtain ⟨connection, found, rfl⟩ := Option.map_eq_some_iff.mp stepped
      exact sound.tidy_visit found
        (ConnectionState.onWritable_settled (careful connection found))
  | close connId =>
      obtain rfl := Option.some.inj stepped
      exact sound.tidy_removeConnection careful
  | closeWithoutWaiting connId =>
      obtain ⟨connection, found, rfl⟩ := Option.map_eq_some_iff.mp stepped
      exact sound.tidy_visit found
        (ConnectionState.destroy_settled (careful connection found))

end Steps

/-! ## Runs -/

/-- In a run whose steps are all careful, every package for the network is
accounted for. -/
theorem accounted_of_stepsMeet {crypto : CryptoLibrary PublicKey PrivateKey}
    {events : List (NetworkEvent PrivateKey)}
    (meets : (machine crypto).StepsMeet Careful events) :
    Accounted crypto events := by
  have atStart : (machine crypto).start.Sound ∧
      ∀ packageId, ¬(machine crypto).start.Leaked packageId :=
    ⟨sound_init, not_leaked_init⟩
  have atStep : ∀ side event next,
      (side.Sound ∧ ∀ packageId, ¬side.Leaked packageId) →
        Careful side event → (machine crypto).step side event = some next →
          next.Sound ∧ ∀ packageId, ¬next.Leaked packageId := by
    rintro side event next ⟨sound, kept⟩ careful stepped
    have tidy := sound.tidy_step careful stepped
    exact ⟨tidy.sound, fun packageId leaked =>
      kept packageId (tidy.leaked packageId leaked)⟩
  have throughout := meets.throughout atStart atStep
  refine ⟨?_, ?_⟩
  · intro first second split side reaches
    exact (throughout first second split side reaches).2
  · rintro first event second rfl before after reaches stepped
    have sound := (throughout first (event :: second) rfl before reaches).1
    exact (sound.tidy_step (meets first event second rfl before reaches)
      stepped).releases

/-- A package waits in the send list of the first connection. -/
def oneSent : List (NetworkEvent Unit) :=
  [.accept (some .closeSecurity) ⟨[], ()⟩ fun _ => .part,
    .sendMessage 1 0 (controlPackage 1030 []),
    .processOutMessage true fun _ => .part]

/-- The connection has an error, and the package is removed. -/
theorem accounted_closeWithoutWaiting :
    Accounted Opening.noCrypto (oneSent ++ [.closeWithoutWaiting 1]) := by
  have accepted : (machine Opening.noCrypto).StepsMeet Careful
      [.accept (some .closeSecurity) ⟨[], ()⟩ fun _ => .part,
        .sendMessage 1 0 (controlPackage 1030 [])] := by
    apply Machine.StepsMeet.of_forall
    intro event present side
    simp only [List.mem_cons, List.not_mem_nil, or_false] at present
    rcases present with rfl | rfl
    · intro packageId thrown
      cases thrown
    · trivial
  have sent : (machine Opening.noCrypto).StepsMeet Careful oneSent := by
    refine accepted.snoc ?_
    intro side reaches
    obtain rfl := Option.some.inj reaches
    refine ⟨?_, ?_⟩
    · intro packageId thrown
      cases thrown
    · intro message rest queue
      obtain ⟨rfl, -⟩ := List.cons.inj queue
      intro _ service
      cases service
  refine accounted_of_stepsMeet (sent.snoc ?_)
  intro side reaches connection found packageId registered
  obtain rfl := Option.some.inj reaches
  obtain rfl := Option.some.inj found
  exact ⟨List.not_mem_nil, List.not_mem_nil⟩

/-- A package waits for the opening of the first connection. -/
def onePending : List (NetworkEvent Unit) :=
  [.connect true, .sendMessage 1 0 (controlPackage 1030 []),
    .processOutMessage true fun _ => .whole]

/-- The connection has an error, and the package stays behind. -/
theorem not_accounted_always :
    ¬∀ events, Accounted Opening.noCrypto events := by
  intro always
  let events : List (NetworkEvent Unit) :=
    onePending ++ [.closeWithoutWaiting 1]
  obtain ⟨throughout, -⟩ := always events
  refine throughout events [] (List.append_nil _).symm _ rfl 1 ⟨?_, ?_, ?_, ?_⟩
  · rfl
  · exact List.not_mem_nil
  · exact List.not_mem_nil
  · intro connId connection found
    change (∅ : Table Int (NetworkConnectionImpl Unit))[connId]? = _ at found
    rw [Std.ExtTreeMap.getElem?_empty] at found
    cases found

end NetworkSide

end Details
end Foundation
end Spaceless
