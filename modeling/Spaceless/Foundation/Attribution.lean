import Spaceless.Foundation.Service

/-!
# Attribution of connections to services

The two maps of the service manager are inverse to each other, and name for
each service the connection that was returned for it most recently.
-/

namespace Spaceless
namespace Foundation

open Logic

/-- A value that another one followed is not the last one again. -/
def NeverReturns {α : Type} (values : List α) : Prop :=
  ∀ first value rest, values = first ++ value :: rest →
    (∃ other ∈ rest, other ≠ value) → values.getLast? ≠ some value

theorem neverReturns_nil {α : Type} : NeverReturns ([] : List α) := by
  intro first value rest split
  simp at split

/-- The next value is the last one again or is new. -/
theorem NeverReturns.snoc {α : Type} {values : List α} {next : α}
    (neverReturns : NeverReturns values)
    (allowed : values.getLast? = some next ∨ next ∉ values) :
    NeverReturns (values ++ [next]) := by
  rintro first value rest split ⟨other, present, differs⟩ last
  rw [List.getLast?_concat, Option.some.injEq] at last
  subst last
  rcases List.eq_nil_or_concat rest with rfl | ⟨before, final, rfl⟩
  · cases present
  · have grouped : values ++ [next] =
        (first ++ next :: before) ++ [final] := by
      rw [split]
      simp
    obtain ⟨rfl, same⟩ := List.append_inj' grouped rfl
    cases same
    rcases allowed with again | fresh
    · refine neverReturns first next before rfl ⟨other, ?_, differs⟩ again
      rw [List.concat_eq_append, List.mem_append] at present
      rcases present with earlier | final
      · exact earlier
      · exact absurd (List.mem_singleton.mp final) differs
    · exact fresh (by simp)

namespace ServiceAnswer

theorem returned_append (serviceId : Int)
    (first second : List ServiceAnswer) :
    returned serviceId (first ++ second) =
      returned serviceId first ++ returned serviceId second :=
  List.filterMap_append

@[simp] theorem returned_connected (serviceId other connId : Int) :
    returned serviceId [.connected other connId] =
      if other = serviceId then [connId] else [] := by
  by_cases same : other = serviceId <;> simp [returned, same]

@[simp] theorem returned_registered (serviceId other : Int) :
    returned serviceId [.registered other] = [] := rfl

@[simp] theorem returned_removed (serviceId other : Int) :
    returned serviceId [.removed other] = [] := rfl

theorem mem_returned_connected {serviceId other connId found : Int}
    {answers : List ServiceAnswer} :
    found ∈ returned serviceId (answers ++ [.connected other connId]) ↔
      found ∈ returned serviceId answers ∨
        other = serviceId ∧ found = connId := by
  rw [returned_append, returned_connected, List.mem_append]
  by_cases same : other = serviceId <;> simp [same]

/-- Only a connection of the service changes its most recent one. -/
theorem mostRecent_connected (serviceId other connId : Int)
    (answers : List ServiceAnswer) :
    mostRecent serviceId (answers ++ [.connected other connId]) =
      if other = serviceId then some connId
      else mostRecent serviceId answers := by
  rw [mostRecent, returned_append, returned_connected]
  by_cases same : other = serviceId
  · rw [if_pos same, if_pos same, List.getLast?_concat]
  · rw [if_neg same, if_neg same, List.append_nil]
    rfl

theorem mostRecent_registered (serviceId other : Int)
    (answers : List ServiceAnswer) :
    mostRecent serviceId (answers ++ [.registered other]) =
      mostRecent serviceId answers := by
  rw [mostRecent, returned_append, returned_registered,
    List.append_nil]
  rfl

theorem mostRecent_removed (serviceId other : Int)
    (answers : List ServiceAnswer) :
    mostRecent serviceId (answers ++ [.removed other]) =
      mostRecent serviceId answers := by
  rw [mostRecent, returned_append, returned_removed, List.append_nil]
  rfl

theorem isRegistered_connected (serviceId other connId : Int)
    (answers : List ServiceAnswer) :
    isRegistered serviceId (answers ++ [.connected other connId]) =
      isRegistered serviceId answers := by
  rw [isRegistered, List.filterMap_append]
  simp [isRegistered]

theorem isRegistered_registered (serviceId other : Int)
    (answers : List ServiceAnswer) :
    isRegistered serviceId (answers ++ [.registered other]) =
      if other = serviceId then true else isRegistered serviceId answers := by
  rw [isRegistered, List.filterMap_append]
  by_cases same : other = serviceId <;> simp [isRegistered, same]

theorem isRegistered_removed (serviceId other : Int)
    (answers : List ServiceAnswer) :
    isRegistered serviceId (answers ++ [.removed other]) =
      if other = serviceId then false else isRegistered serviceId answers := by
  rw [isRegistered, List.filterMap_append]
  by_cases same : other = serviceId <;> simp [isRegistered, same]

end ServiceAnswer

namespace ServiceSide

open ServiceAnswer

/-- The maps of the service manager and what was answered so far. -/
structure Linked (answers : List ServiceAnswer) (side : ServiceSide) :
    Prop where
  listed : ∀ serviceId : Int,
    side.manager.connList[serviceId]? = mostRecent serviceId answers
  inverse : ∀ connId serviceId : Int,
    side.manager.connServiceList[connId]? = some serviceId ↔
      side.manager.connList[serviceId]? = some connId
  registered : ∀ serviceId,
    (side.manager.findService serviceId).isSome =
      isRegistered serviceId answers
  named : ∀ serviceId service,
    side.manager.findService serviceId = some service →
      service.serviceId = serviceId ∧ serviceId < side.manager.nextId
  given : ∀ serviceId, ∀ connId ∈ returned serviceId answers,
    connId ∈ side.connections.given
  apart : ∀ serviceId other connId, connId ∈ returned serviceId answers →
    connId ∈ returned other answers → serviceId = other
  neverReturns : ∀ serviceId, NeverReturns (returned serviceId answers)

theorem linked_init : Linked [] init where
  listed serviceId := by simp [init, NetworkServiceManager.init, mostRecent,
    returned]
  inverse connId serviceId := by simp [init, NetworkServiceManager.init]
  registered serviceId := by
    simp [init, NetworkServiceManager.init,
      NetworkServiceManager.findService, isRegistered]
  named serviceId service found := by
    simp [init, NetworkServiceManager.init,
      NetworkServiceManager.findService] at found
  given _ connId present := by simp [returned] at present
  apart _ _ connId present := by simp [returned] at present
  neverReturns _ := neverReturns_nil

namespace Linked

variable {answers : List ServiceAnswer} {side next : ServiceSide}

/-- Connections come and go without the service manager. -/
theorem of_connections (linked : Linked answers side)
    {connections : OpenConnections}
    (grown : ∀ connId ∈ side.connections.given,
      connId ∈ connections.given) :
    Linked answers { side with connections := connections } :=
  { linked with
    given := fun serviceId connId present =>
      grown connId (linked.given serviceId connId present) }

/-- The most recent connection is returned again. -/
theorem again (linked : Linked answers side) {serviceId connId : Int}
    (recent : mostRecent serviceId answers = some connId) :
    Linked (answers ++ [.connected serviceId connId]) side := by
  have known : connId ∈ returned serviceId answers :=
    List.mem_of_getLast? recent
  have same (other found : Int) :
      found ∈ returned other (answers ++ [.connected serviceId connId]) ↔
        found ∈ returned other answers := by
    rw [mem_returned_connected, or_iff_left_iff_imp]
    rintro ⟨rfl, rfl⟩
    exact known
  constructor
  · intro other
    rw [mostRecent_connected, linked.listed]
    split
    · next equal => rw [← equal, recent]
    · rfl
  · exact linked.inverse
  · intro other
    rw [isRegistered_connected, linked.registered]
  · exact linked.named
  · intro other found present
    exact linked.given other found ((same other found).mp present)
  · intro first second found present presentOther
    exact linked.apart first second found ((same first found).mp present)
      ((same second found).mp presentOther)
  · intro other
    rw [returned_append, returned_connected]
    split
    · next equal =>
        exact (linked.neverReturns other).snoc (Or.inl (equal ▸ recent))
    · rw [List.append_nil]
      exact linked.neverReturns other

/-- A new connection is returned and takes the place of the one before. -/
theorem fresh (linked : Linked answers side) {serviceId connId : Int}
    (unused : connId ∉ side.connections.given)
    (services : next.manager.serviceList = side.manager.serviceList)
    (nextId : next.manager.nextId = side.manager.nextId)
    (lists : ∀ other : Int, next.manager.connList[other]? =
      if serviceId = other then some connId
      else side.manager.connList[other]?)
    (inverts : ∀ found : Int, next.manager.connServiceList[found]? =
      if connId = found then some serviceId
      else if side.manager.connList[serviceId]? = some found then none
      else side.manager.connServiceList[found]?)
    (given : next.connections.given = connId :: side.connections.given) :
    Linked (answers ++ [.connected serviceId connId]) next := by
  have unreturned (other : Int) : connId ∉ returned other answers :=
    fun present => unused (linked.given other connId present)
  have unlisted (other : Int) :
      side.manager.connList[other]? ≠ some connId := by
    rw [linked.listed]
    intro recent
    exact unreturned other (List.mem_of_getLast? recent)
  constructor
  · intro other
    rw [mostRecent_connected, lists, linked.listed]
  · intro found other
    rw [inverts, lists]
    by_cases isNew : connId = found
    · subst isNew
      by_cases same : serviceId = other <;> simp [same, unlisted other]
    · rw [if_neg isNew]
      by_cases same : serviceId = other
      · subst same
        have inverse := linked.inverse found serviceId
        by_cases old : side.manager.connList[serviceId]? = some found
        · simp [old, isNew]
        · simp [old, isNew, inverse]
      · rw [if_neg same, ← linked.inverse found other]
        split
        · next old =>
            rw [← linked.inverse found serviceId] at old
            simp [old, same]
        · rfl
  · intro other
    rw [isRegistered_connected, ← linked.registered,
      NetworkServiceManager.findService, services]
    rfl
  · intro other service found
    rw [NetworkServiceManager.findService, services] at found
    rw [nextId]
    exact linked.named other service found
  · intro other found present
    rw [given, List.mem_cons]
    rcases mem_returned_connected.mp present with before | ⟨-, rfl⟩
    · exact Or.inr (linked.given other found before)
    · exact Or.inl rfl
  · intro first second found present presentOther
    rcases mem_returned_connected.mp present with before | ⟨rfl, rfl⟩
    · rcases mem_returned_connected.mp presentOther with
        beforeOther | ⟨rfl, rfl⟩
      · exact linked.apart first second found before beforeOther
      · exact absurd before (unreturned first)
    · rcases mem_returned_connected.mp presentOther with
        beforeOther | ⟨rfl, -⟩
      · exact absurd beforeOther (unreturned second)
      · rfl
  · intro other
    rw [returned_append, returned_connected]
    split
    · exact (linked.neverReturns other).snoc (Or.inr (unreturned other))
    · rw [List.append_nil]
      exact linked.neverReturns other

/-- A service receives the next identifier. -/
theorem registerService (linked : Linked answers side) (ip : Text)
    (port : Int) :
    let registered := side.manager.registerService ip port
    Linked
      (answers ++ match registered.1 with
        | .ok service => [.registered service.serviceId]
        | .error _ => [])
      { side with manager := registered.2 } := by
  intro registered
  have unused : side.manager.serviceList[side.manager.nextId]? = none := by
    cases bound : side.manager.serviceList[side.manager.nextId]? with
    | none => rfl
    | some service =>
        exact absurd (linked.named _ service bound).2
          (Int.lt_irrefl side.manager.nextId)
  cases search : side.manager.findServiceByAddress ip port with
  | some old =>
      have same : registered =
          (.error .errNetworkServiceAlreadyExist, side.manager) := by
        simp only [registered, NetworkServiceManager.registerService, search]
      rw [same, List.append_nil]
      exact linked
  | none =>
      let service : NetworkService :=
        { serviceId := side.manager.nextId, ip := ip, port := port }
      have added : registered = (.ok service,
          { side.manager with
            nextId := side.manager.nextId + 1
            serviceList :=
              side.manager.serviceList.insert service.serviceId service }) := by
        simp only [registered, NetworkServiceManager.registerService, search,
          unused, service, Table.insertIfNew_of_fresh _ unused]
      rw [added]
      constructor
      · intro other
        rw [mostRecent_registered]
        exact linked.listed other
      · exact linked.inverse
      · intro other
        have before := linked.registered other
        rw [isRegistered_registered, ← before]
        simp only [NetworkServiceManager.findService, Table.lookup_insert]
        split <;> rfl
      · intro other found lookup
        simp only [NetworkServiceManager.findService,
          Table.lookup_insert] at lookup
        split at lookup
        · next same =>
            cases lookup
            exact ⟨same, same ▸ Int.lt_succ side.manager.nextId⟩
        · obtain ⟨name, below⟩ := linked.named other found lookup
          exact ⟨name, Int.lt_trans below (Int.lt_succ side.manager.nextId)⟩
      · intro other found present
        rw [returned_append, returned_registered, List.append_nil] at present
        exact linked.given other found present
      · intro first second found present presentOther
        rw [returned_append, returned_registered, List.append_nil] at *
        exact linked.apart first second found present presentOther
      · intro other
        rw [returned_append, returned_registered, List.append_nil]
        exact linked.neverReturns other

/-- A service that is removed leaves its connection in the maps. -/
theorem removeService (linked : Linked answers side) (serviceId : Int) :
    Linked (answers ++ [.removed serviceId]) (side.removeService serviceId) :=
  by
  have given : (side.removeService serviceId).connections.given =
      side.connections.given := by
    unfold ServiceSide.removeService
    cases side.manager.connList[serviceId]? <;> rfl
  constructor
  · intro other
    rw [mostRecent_removed]
    exact linked.listed other
  · exact linked.inverse
  · intro other
    rw [isRegistered_removed, ← linked.registered]
    simp only [NetworkServiceManager.findService, ServiceSide.removeService,
      Table.lookup_erase]
    split <;> rfl
  · intro other found lookup
    exact linked.named other found (Table.lookup_of_lookup_erase lookup)
  · intro other found present
    rw [returned_append, returned_removed, List.append_nil] at present
    rw [given]
    exact linked.given other found present
  · intro first second found present presentOther
    rw [returned_append, returned_removed, List.append_nil] at *
    exact linked.apart first second found present presentOther
  · intro other
    rw [returned_append, returned_removed, List.append_nil]
    exact linked.neverReturns other

/-- The maps do not know a connection that was never given. -/
theorem connServiceList_eq_none (linked : Linked answers side) {connId : Int}
    (unused : connId ∉ side.connections.given) :
    side.manager.connServiceList[connId]? = none := by
  cases found : side.manager.connServiceList[connId]? with
  | none => rfl
  | some serviceId =>
      have listed := (linked.inverse connId serviceId).mp found
      rw [linked.listed] at listed
      exact absurd (linked.given serviceId connId
        (List.mem_of_getLast? listed)) unused

/-- A call returns the most recent connection or a new one. -/
theorem getConnectionId (linked : Linked answers side) (serviceId : Int)
    {attempt : Option Int}
    (unused : ∀ connId ∈ attempt, connId ∉ side.connections.given) :
    let connected := side.getConnectionId serviceId attempt
    Linked
      (answers ++ match connected.1 with
        | .ok connId => [.connected serviceId connId]
        | .error _ => [])
      connected.2 := by
  intro connected
  cases search : side.manager.findService serviceId with
  | none =>
      have same : connected = (.error .errNetworkServiceNotExist, side) := by
        simp only [connected, ServiceSide.getConnectionId, search]
      rw [same, List.append_nil]
      exact linked
  | some service =>
      cases listed : side.manager.connList[serviceId]? with
      | none =>
          cases attempt with
          | none =>
              have same : connected = (.error .refused, side) := by
                simp only [connected, ServiceSide.getConnectionId, search,
                  listed, OpenConnections.registerConnection]
              rw [same, List.append_nil]
              exact linked
          | some connId =>
              have absent := linked.connServiceList_eq_none
                (unused connId rfl)
              have opened : connected = (.ok connId,
                  { manager :=
                      { side.manager with
                        connList := side.manager.connList.insert serviceId
                          connId
                        connServiceList := side.manager.connServiceList.insert
                          connId serviceId }
                    connections :=
                      (side.connections.registerConnection connId).2 }) := by
                simp only [connected, ServiceSide.getConnectionId, search,
                  listed, OpenConnections.registerConnection,
                  Table.insertIfNew_of_fresh _ listed,
                  Table.insertIfNew_of_fresh _ absent]
              rw [opened]
              refine linked.fresh (unused connId rfl) ?_ ?_ ?_ ?_ ?_
              · rfl
              · rfl
              · exact fun other => Table.lookup_insert _ _ _ _
              · intro found
                simp [Table.lookup_insert, listed]
              · rfl
      | some old =>
          by_cases valid : side.connections.isValid old = true
          · have same : connected = (.ok old, side) := by
              simp only [connected, ServiceSide.getConnectionId, search,
                listed, valid, if_true]
            rw [same]
            apply linked.again
            rw [← linked.listed]
            exact listed
          · cases attempt with
            | none =>
                have same : connected = (.error .refused, side) := by
                  simp only [connected, ServiceSide.getConnectionId, search,
                    listed, valid, OpenConnections.registerConnection]
                  rfl
                rw [same, List.append_nil]
                exact linked
            | some connId =>
                have absent :
                    (side.manager.connServiceList.erase old)[connId]? =
                      none := by
                  rw [Table.lookup_erase, ite_eq_left_iff]
                  intro _
                  exact linked.connServiceList_eq_none (unused connId rfl)
                have opened : connected = (.ok connId,
                    { manager :=
                        { side.manager with
                          connList := side.manager.connList.insert serviceId
                            connId
                          connServiceList :=
                            (side.manager.connServiceList.erase old).insert
                              connId serviceId }
                      connections :=
                        (side.connections.registerConnection connId).2 }) := by
                  simp only [connected, ServiceSide.getConnectionId, search,
                    listed, valid, Bool.false_eq_true, if_false,
                    OpenConnections.registerConnection,
                    Table.insertIfNew_of_fresh _ absent]
                rw [opened]
                refine linked.fresh (unused connId rfl) ?_ ?_ ?_ ?_ ?_
                · rfl
                · rfl
                · exact fun other => Table.lookup_insert _ _ _ _
                · intro found
                  simp [Table.lookup_insert, Table.lookup_erase, listed]
                · rfl

theorem step (linked : Linked answers side) {event : ServiceEvent}
    (stepped : side.step event = some next) :
    Linked (answers ++ answer side event next) next := by
  cases event with
  | registerService ip port =>
      cases stepped
      exact linked.registerService ip port
  | removeService serviceId =>
      cases stepped
      exact linked.removeService serviceId
  | getConnectionId serviceId attempt =>
      simp only [ServiceSide.step, Option.ite_none_left_eq_some] at stepped
      obtain ⟨unused, taken⟩ := stepped
      cases taken
      apply linked.getConnectionId serviceId
      intro connId asked given
      exact unused ⟨connId, asked, given⟩
  | lose connId =>
      cases stepped
      rw [answer, List.append_nil]
      exact linked.of_connections fun _ given => given
  | connect connId =>
      simp only [ServiceSide.step, Option.ite_none_left_eq_some] at stepped
      obtain ⟨-, taken⟩ := stepped
      cases taken
      rw [answer, List.append_nil]
      exact linked.of_connections fun _ given => List.mem_cons_of_mem _ given

end Linked

variable {events : List ServiceEvent} {side : ServiceSide}

theorem answers_snoc {event : ServiceEvent} {next : ServiceSide}
    (reaches : machine.Reaches events side)
    (stepped : machine.step side event = some next) :
    answers (events ++ [event]) =
      answers events ++ answer side event next :=
  Machine.outputs_snoc reaches stepped

theorem linked_of_reaches (reaches : machine.Reaches events side) :
    Linked (answers events) side := by
  have start : Linked (answers []) machine.start := linked_init
  refine Machine.Reaches.induction (motive := fun events side =>
    Linked (answers events) side) start ?_ reaches
  intro events side event next reaches linked stepped
  rw [answers_snoc reaches stepped]
  exact linked.step stepped

/-! ## Lost connections -/

/-- A connection that was given and is not open. -/
structure Lost (connId : Int) (side : ServiceSide) : Prop where
  given : connId ∈ side.connections.given
  closed : connId ∉ side.connections.opened

/-- A call that returns a connection found it open or opened it. -/
theorem getConnectionId_connections (side : ServiceSide) (serviceId : Int)
    (attempt : Option Int) :
    let connected := side.getConnectionId serviceId attempt
    connected.2.connections = side.connections ∧
        (∀ connId, connected.1 = .ok connId →
          connId ∈ side.connections.opened) ∨
      ∃ connId, attempt = some connId ∧ connected.1 = .ok connId ∧
        connected.2.connections =
          (side.connections.registerConnection connId).2 := by
  intro connected
  have unfolded : connected = side.getConnectionId serviceId attempt := rfl
  unfold getConnectionId at unfolded
  cases search : side.manager.findService serviceId with
  | none =>
      simp only [search] at unfolded
      exact Or.inl (by simp [unfolded])
  | some service =>
      cases listed : side.manager.connList[serviceId]? with
      | none =>
          simp only [search, listed] at unfolded
          cases attempt with
          | none =>
              exact Or.inl (by
                simp [unfolded, OpenConnections.registerConnection])
          | some connId =>
              exact Or.inr ⟨connId, rfl, by rw [unfolded]; rfl,
                by rw [unfolded]; rfl⟩
      | some old =>
          simp only [search, listed] at unfolded
          by_cases valid : side.connections.isValid old = true
          · rw [if_pos valid] at unfolded
            left
            rw [unfolded]
            refine ⟨rfl, ?_⟩
            intro connId same
            cases same
            exact of_decide_eq_true valid
          · rw [if_neg valid] at unfolded
            cases attempt with
            | none =>
                exact Or.inl (by
                  simp [unfolded, OpenConnections.registerConnection])
            | some connId =>
                exact Or.inr ⟨connId, rfl, by rw [unfolded]; rfl,
                  by rw [unfolded]; rfl⟩

namespace Lost

variable {connId : Int} {next : ServiceSide}

theorem of_registerConnection (lost : Lost connId side) {other : Int}
    (unused : other ∉ side.connections.given)
    (same : next.connections =
      (side.connections.registerConnection other).2) :
    Lost connId next where
  given := by
    rw [same]
    exact List.mem_cons_of_mem other lost.given
  closed := by
    rw [same]
    intro present
    rcases List.mem_cons.mp present with rfl | before
    · exact unused lost.given
    · exact lost.closed before

theorem of_removeConnection (lost : Lost connId side) {other : Int}
    (same : next.connections = side.connections.removeConnection other) :
    Lost connId next where
  given := by
    rw [same]
    exact lost.given
  closed := by
    rw [same]
    intro present
    exact lost.closed (List.mem_filter.mp present).1

theorem of_same (lost : Lost connId side)
    (same : next.connections = side.connections) : Lost connId next where
  given := same ▸ lost.given
  closed := same ▸ lost.closed

/-- Identifiers are not given again, so a lost connection does not open. -/
theorem step (lost : Lost connId side) {event : ServiceEvent}
    (stepped : side.step event = some next) : Lost connId next := by
  cases event with
  | registerService ip port =>
      cases stepped
      exact lost.of_same rfl
  | removeService serviceId =>
      cases stepped
      cases listed : side.manager.connList[serviceId]? with
      | none => exact lost.of_same (by simp [removeService, listed])
      | some other =>
          have same : (side.removeService serviceId).connections =
              side.connections.removeConnection other := by
            simp [removeService, listed]
          exact lost.of_removeConnection same
  | getConnectionId serviceId attempt =>
      simp only [ServiceSide.step, Option.ite_none_left_eq_some] at stepped
      obtain ⟨unused, taken⟩ := stepped
      cases taken
      rcases getConnectionId_connections side serviceId attempt with
        ⟨same, -⟩ | ⟨other, rfl, -, same⟩
      · exact lost.of_same same
      · exact lost.of_registerConnection
          (fun given => unused ⟨other, rfl, given⟩) same
  | lose other =>
      cases stepped
      exact lost.of_removeConnection rfl
  | connect other =>
      simp only [ServiceSide.step, Option.ite_none_left_eq_some] at stepped
      obtain ⟨unused, taken⟩ := stepped
      cases taken
      exact lost.of_registerConnection unused rfl

theorem run (lost : Lost connId side) {events : List ServiceEvent}
    (run : machine.run side events = some next) : Lost connId next := by
  induction events generalizing side with
  | nil =>
      cases run
      exact lost
  | cons event events inductionHypothesis =>
      obtain ⟨middle, stepped, later⟩ := Option.bind_eq_some_iff.mp run
      exact inductionHypothesis (lost.step stepped) later

/-- The service of a lost connection receives another one. -/
theorem other (lost : Lost connId side) {serviceId : Int}
    {attempt : Option Int} {returned : Int}
    (unused : ¬∃ connId ∈ attempt, connId ∈ side.connections.given)
    (connected : (side.getConnectionId serviceId attempt).1 = .ok returned) :
    returned ≠ connId := by
  rintro rfl
  rcases getConnectionId_connections side serviceId attempt with
    ⟨-, opened⟩ | ⟨fresh, rfl, given, -⟩
  · exact lost.closed (opened returned connected)
  · cases connected.symm.trans given
    exact unused ⟨returned, rfl, lost.given⟩

end Lost

/-! ## Whole runs -/

/-- The service of a connection is the registered one that it was returned
for most recently. -/
theorem Linked.findServiceByConnection_iff {answers : List ServiceAnswer}
    (linked : Linked answers side) (connId serviceId : Int) :
    (side.manager.findServiceByConnection connId).map
        NetworkService.serviceId = some serviceId ↔
      isRegistered serviceId answers = true ∧
        mostRecent serviceId answers = some connId := by
  rw [← linked.registered, ← linked.listed, ← linked.inverse,
    NetworkServiceManager.findServiceByConnection, Option.map_eq_some_iff]
  constructor
  · rintro ⟨service, found, rfl⟩
    obtain ⟨other, attributed, lookup⟩ := Option.bind_eq_some_iff.mp found
    obtain ⟨rfl, -⟩ := linked.named other service lookup
    exact ⟨by rw [lookup]; rfl, attributed⟩
  · rintro ⟨registered, attributed⟩
    obtain ⟨service, lookup⟩ := Option.isSome_iff_exists.mp registered
    refine ⟨service, ?_, (linked.named serviceId service lookup).1⟩
    rw [attributed, Option.bind_some, lookup]

/-- What holds of the connections of services in a run. -/
structure Attributed (events : List ServiceEvent)
    (manager : NetworkServiceManager) : Prop where
  recent : ∀ connId serviceId,
    (manager.findServiceByConnection connId).map
        NetworkService.serviceId = some serviceId ↔
      isRegistered serviceId (answers events) = true ∧
        mostRecent serviceId (answers events) = some connId
  /-- No connection was returned for two services. -/
  apart : ∀ serviceId other connId,
    connId ∈ returned serviceId (answers events) →
    connId ∈ returned other (answers events) → serviceId = other
  /-- After a loss and the next successful request for the service. -/
  gone : ∀ first connId second serviceId attempt third side,
    events = first ++ .lose connId ::
      (second ++ .getConnectionId serviceId attempt :: third) →
    connId ∈ returned serviceId (answers first) →
    machine.Reaches (first ++ .lose connId :: second) side →
    (∃ returned, (side.getConnectionId serviceId attempt).1 = .ok returned) →
    manager.findServiceByConnection connId = none

theorem mem_returned_append {first second : List ServiceEvent}
    {last : ServiceSide} (reaches : machine.Reaches (first ++ second) last)
    {connId serviceId : Int}
    (before : connId ∈ returned serviceId (answers first)) :
    connId ∈ returned serviceId (answers (first ++ second)) := by
  obtain ⟨middle, reachesFirst, -⟩ := Machine.reaches_append_iff.mp reaches
  rw [answers, Machine.outputs_append reachesFirst, returned_append]
  exact List.mem_append_left _ before

/-- After the service of a lost connection received another one, the lost one
is not the most recent. -/
theorem mostRecent_ne_of_lost {first second third : List ServiceEvent}
    {connId serviceId : Int} {attempt : Option Int} {middle last : ServiceSide}
    (reaches : machine.Reaches (first ++ .lose connId ::
      (second ++ .getConnectionId serviceId attempt :: third)) last)
    (before : connId ∈ returned serviceId (answers first))
    (reachesMiddle : machine.Reaches (first ++ .lose connId :: second) middle)
    {other : Int}
    (connected : (middle.getConnectionId serviceId attempt).1 = .ok other) :
    mostRecent serviceId (answers (first ++ .lose connId ::
      (second ++ .getConnectionId serviceId attempt :: third))) ≠
        some connId := by
  have linked := linked_of_reaches reaches
  have regrouped : first ++ .lose connId ::
      (second ++ .getConnectionId serviceId attempt :: third) =
        (first ++ .lose connId :: second) ++
          .getConnectionId serviceId attempt :: third := by simp
  rw [regrouped] at reaches linked ⊢
  obtain ⟨_, again, run⟩ := Machine.reaches_append_iff.mp reaches
  obtain rfl := reachesMiddle.unique again
  obtain ⟨next, stepped, -⟩ := Option.bind_eq_some_iff.mp run
  obtain ⟨start, reachesFirst, runMiddle⟩ :=
    Machine.reaches_append_iff.mp reachesMiddle
  obtain ⟨closed, closes, later⟩ := Option.bind_eq_some_iff.mp runMiddle
  -- the connection stays lost up to the request
  have lost : Lost connId closed := by
    cases closes
    refine ⟨(linked_of_reaches reachesFirst).given serviceId connId before, ?_⟩
    intro opened
    exact of_decide_eq_true (List.mem_filter.mp opened).2 rfl
  have differs : other ≠ connId := by
    simp only [machine, ServiceSide.step,
      Option.ite_none_left_eq_some] at stepped
    exact (lost.run later).other stepped.1 connected
  -- the answers up to the loss, and those from the request on
  have split : answers ((first ++ .lose connId :: second) ++
      .getConnectionId serviceId attempt :: third) =
        answers first ++
          (machine.outputs answer start (.lose connId :: second) ++
            (.connected serviceId other ::
              machine.outputs answer next third)) := by
    have request : answer middle (.getConnectionId serviceId attempt) next =
        [.connected serviceId other] := by
      simp only [answer, connected]
    rw [answers, Machine.outputs_append reachesMiddle,
      Machine.outputs_append reachesFirst, Machine.outputs_cons stepped,
      request, List.append_assoc]
    rfl
  rw [split] at linked ⊢
  obtain ⟨front, back, found⟩ := List.append_of_mem before
  apply linked.neverReturns serviceId front connId
  · rw [returned_append, found, List.append_assoc, List.cons_append]
  · refine ⟨other, ?_, differs⟩
    rw [List.mem_append, returned_append, List.mem_append]
    exact Or.inr (Or.inr (by simp [returned]))

/-- In every run of the calls, with losses at any time, a connection is
attributed to the service that it was returned for most recently, and to none
when it was lost and replaced. -/
theorem attributed {events : List ServiceEvent} {side : ServiceSide}
    (reaches : machine.Reaches events side) :
    Attributed events side.manager := by
  have linked := linked_of_reaches reaches
  refine ⟨linked.findServiceByConnection_iff, linked.apart, ?_⟩
  rintro first connId second serviceId attempt third middle rfl before
    reachesMiddle ⟨other, connected⟩
  cases found : side.manager.findServiceByConnection connId with
  | none => rfl
  | some service =>
      have attributed := (linked.findServiceByConnection_iff connId
        service.serviceId).mp (by rw [found]; rfl)
      have listed := linked.apart serviceId service.serviceId connId
        (mem_returned_append reaches before)
        (List.mem_of_getLast? attributed.2)
      rw [← listed] at attributed
      exact absurd attributed.2
        (mostRecent_ne_of_lost reaches before reachesMiddle connected)

/-- A service whose connection is lost and replaced. -/
def replacement : List ServiceEvent :=
  [.registerService [] 80, .getConnectionId 1 (some 5), .lose 5,
    .getConnectionId 1 (some 6)]

theorem attributed_replacement :
    ∃ side, machine.Reaches replacement side ∧
      Attributed replacement side.manager :=
  ⟨_, rfl, attributed rfl⟩

end ServiceSide

end Foundation
end Spaceless
